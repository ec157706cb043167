import Calligraph.Walk

/-!
# Runs of the walk

`Steps` counts the steps between two states and `run_of_steps` ties them to `run`. Whatever the tree
is like, a run finds nothing but calls: `run_out` names the calls that a run visits, and
`walk_visits` reads the output of the walk off them.
-/

namespace Calligraph.WalkView

variable {α : Type} {v : WalkView α}

/-- `n` steps lead from one state to the other. -/
inductive Steps (v : WalkView α) : Nat → WalkState → WalkState → Prop where
  | refl (s : WalkState) : Steps v 0 s s
  | head {n : Nat} {s t u : WalkState} : v.step s = some t → Steps v n t u → Steps v (n + 1) s u

theorem Steps.trans {m n : Nat} {s t u : WalkState} (hst : v.Steps m s t) (htu : v.Steps n t u) :
    v.Steps (m + n) s u := by
  induction hst with
  | refl => simpa using htu
  | head hs _ ih => rw [Nat.add_right_comm]; exact .head hs (ih htu)

theorem Steps.single {s t : WalkState} (h : v.step s = some t) : v.Steps 1 s t :=
  .head h (.refl t)

theorem run_of_steps {n : Nat} {s t : WalkState} (h : v.Steps n s t) (m : Nat) :
    v.run (n + m) s = v.run m t := by
  induction h with
  | refl => rw [Nat.zero_add]
  | head hs _ ih => rw [Nat.add_right_comm, run, hs]; exact ih

theorem run_of_step_eq_none {s : WalkState} (h : v.step s = none) (m : Nat) : v.run m s = s := by
  cases m with
  | zero => rfl
  | succ m => rw [run, h]

/-! ## Calls that are visited -/

/-- The walk has something to tell of the node. -/
def Counts (v : WalkView α) (node : Nat) : Prop :=
  v.arena.kind node = .call ∧ v.isCall node = true

instance (v : WalkView α) (node : Nat) : Decidable (v.Counts node) :=
  inferInstanceAs (Decidable (_ ∧ _))

/-- Adds calls one after the other, each with the routines around it. -/
def visitAll (v : WalkView α) (visited : List (List Nat × Nat)) (out : WalkOutput) : WalkOutput :=
  visited.foldl (fun out x => v.visit x.1 x.2 out) out

@[simp] theorem visitAll_nil (out : WalkOutput) : v.visitAll [] out = out := rfl

@[simp] theorem visitAll_cons (x : List Nat × Nat) (visited : List (List Nat × Nat))
    (out : WalkOutput) :
    v.visitAll (x :: visited) out = v.visitAll visited (v.visit x.1 x.2 out) := rfl

theorem visitAll_append (first second : List (List Nat × Nat)) (out : WalkOutput) :
    v.visitAll (first ++ second) out = v.visitAll second (v.visitAll first out) :=
  List.foldl_append

theorem sites_visitAll (visited : List (List Nat × Nat)) (out : WalkOutput) :
    (v.visitAll visited out).sites.toList =
      out.sites.toList ++ visited.map fun x => v.site x.1 x.2 := by
  induction visited generalizing out with
  | nil => simp
  | cons x rest ih => rw [visitAll_cons, ih]; simp [visit]

theorem diagnostics_visitAll (visited : List (List Nat × Nat)) (out : WalkOutput) :
    (v.visitAll visited out).diagnostics.toList =
      out.diagnostics.toList ++ visited.flatMap fun x => v.lost x.1 x.2 := by
  induction visited generalizing out with
  | nil => simp
  | cons x rest ih => rw [visitAll_cons, ih]; simp [visit]

/-- A step visits one call or none. -/
theorem step_out {s t : WalkState} (h : v.step s = some t) :
    ∃ visited, (∀ x ∈ visited, v.Counts x.2) ∧ t.out = v.visitAll visited s.out := by
  obtain ⟨work, scopes, out⟩ := s
  match work with
  | [] => cases h
  | .leave :: work =>
    cases h
    exact ⟨[], by simp, rfl⟩
  | .enter node :: work =>
    simp only [step] at h
    split at h
    · cases h
      exact ⟨[], by simp, rfl⟩
    · next hk =>
      cases h
      by_cases hc : v.isCall node = true
      · exact ⟨[(scopes, node)], by simpa using ⟨hk, hc⟩, by simp [hc]⟩
      · exact ⟨[], by simp, by simp [hc]⟩
    · cases h
      exact ⟨[], by simp, rfl⟩

theorem run_out (fuel : Nat) (s : WalkState) :
    ∃ visited, (∀ x ∈ visited, v.Counts x.2) ∧
      (v.run fuel s).out = v.visitAll visited s.out := by
  induction fuel generalizing s with
  | zero => exact ⟨[], by simp, rfl⟩
  | succ fuel ih =>
    rw [run]
    cases hs : v.step s with
    | none => exact ⟨[], by simp, rfl⟩
    | some t =>
      obtain ⟨now, hnow, ht⟩ := step_out hs
      obtain ⟨later, hlater, hr⟩ := ih t
      refine ⟨now ++ later, ?_, ?_⟩
      · intro x hx
        exact (List.mem_append.1 hx).elim (hnow x) (hlater x)
      · rw [visitAll_append, ← ht]
        exact hr

/-- The output of a walk is that of the calls it visits. -/
theorem walk_visits (v : WalkView α) :
    ∃ visited : List (List Nat × Nat), (∀ x ∈ visited, v.Counts x.2) ∧
      (v.walk.sites.toList = visited.map fun x => v.site x.1 x.2) ∧
      v.walk.diagnostics.toList = visited.flatMap fun x => v.lost x.1 x.2 := by
  obtain ⟨visited, hv, hout⟩ := v.run_out v.fuel { work := [.enter 0] }
  refine ⟨visited, hv, ?_, ?_⟩
  · rw [walk, hout, sites_visitAll]; rfl
  · rw [walk, hout, diagnostics_visitAll]; rfl

/-- Every call that a walk finds is one of its unit. -/
theorem unit_of_mem_sites {site : CallSite} (h : site ∈ v.walk.sites.toList) :
    site.unit = v.index := by
  obtain ⟨visited, -, hs, -⟩ := v.walk_visits
  rw [hs] at h
  obtain ⟨x, -, rfl⟩ := List.mem_map.1 h
  rfl

end Calligraph.WalkView
