import Calligraph.Proofs.Arena.Forest
import Calligraph.Proofs.Walk.Run

/-!
# The walk as a traversal

The walk is one of the traversals of its arena (`WalkView.Reached.traversal`), and it takes at most
two steps for each node it visits. So it ends within its fuel on every arena in which nodes are
listed once, whether or not the arena is a tree (`WalkView.reached_walk`). Arenas that have grown
from a root by any additions are of this kind (`Arena.addAll_forest`).
-/

namespace Calligraph

/-- The nodes among the work ahead. -/
def WalkState.ahead (s : WalkState) : List Nat :=
  s.work.filterMap fun
    | .enter node => some node
    | .leave => none

/-- The routines that are still to be left. -/
def WalkState.leaves (s : WalkState) : Nat :=
  s.work.count .leave

namespace WalkView

variable {α : Type} {v : WalkView α}

/-- The walk comes to a state in `n` steps, and the nodes that it enters on the way are `visited`,
the last one first. -/
inductive Reached (v : WalkView α) : Nat → List Nat → WalkState → Prop
  | start : Reached v 0 [] { work := [.enter 0] }
  | enter {n node : Nat} {visited : List Nat} {s t : WalkState} {work : List WalkStep} :
      Reached v n visited s → s.work = .enter node :: work → v.step s = some t →
      Reached v (n + 1) (node :: visited) t
  | leave {n : Nat} {visited : List Nat} {s t : WalkState} {work : List WalkStep} :
      Reached v n visited s → s.work = .leave :: work → v.step s = some t →
      Reached v (n + 1) visited t

/-! ## One step -/

/-- Entering a node puts its children ahead of the other work, and a routine is left behind them. -/
theorem step_enter {s t : WalkState} {node : Nat} {work : List WalkStep}
    (hwork : s.work = .enter node :: work) (h : v.step s = some t) :
    ∃ left : Bool, t.work =
        (v.arena.children node).map .enter ++ ((if left then [.leave] else []) ++ work) ∧
      t.scopes = (if left then [node] else []) ++ s.scopes := by
  obtain ⟨_, scopes, out⟩ := s
  subst hwork
  simp only [step] at h
  split at h
  · cases h
    exact ⟨true, rfl, rfl⟩
  · cases h
    exact ⟨false, rfl, rfl⟩
  · cases h
    exact ⟨false, rfl, rfl⟩

theorem step_leave {s t : WalkState} {work : List WalkStep} (hwork : s.work = .leave :: work)
    (h : v.step s = some t) : t.work = work ∧ t.scopes = s.scopes.tail := by
  obtain ⟨_, scopes, out⟩ := s
  subst hwork
  cases h
  exact ⟨rfl, rfl⟩

theorem work_eq_nil_of_step {s : WalkState} (h : v.step s = none) : s.work = [] := by
  obtain ⟨work, scopes, out⟩ := s
  cases work with
  | nil => rfl
  | cons first work =>
    cases first with
    | leave => cases h
    | enter node =>
      simp only [step] at h
      split at h <;> cases h

/-! ## Runs -/

namespace Reached

variable {n : Nat} {visited : List Nat} {s : WalkState}

theorem traversal (h : v.Reached n visited s) : v.arena.Traversal visited s.ahead := by
  induction h with
  | start => exact .start
  | @enter n node visited s t work _ hwork hstep ih =>
    obtain ⟨left, ht, -⟩ := step_enter hwork hstep
    have hbefore : s.ahead = node :: WalkState.ahead { work } := by
      rw [WalkState.ahead, hwork]
      rfl
    refine ih.visit (.of_eq hbefore) (.of_eq ?_)
    rw [WalkState.ahead, ht, List.filterMap_append, List.filterMap_append, List.filterMap_map]
    cases left <;> simp [WalkState.ahead]
  | @leave n visited s t work _ hwork hstep ih =>
    have hsame : t.ahead = s.ahead := by
      rw [WalkState.ahead, WalkState.ahead, hwork, (step_leave hwork hstep).1]
      rfl
    rwa [hsame]

/-- Each routine on the stack will be left, and no node takes more than two steps. -/
theorem steps_le (h : v.Reached n visited s) :
    s.scopes.length = s.leaves ∧ n + s.leaves ≤ 2 * visited.length := by
  induction h with
  | start => exact ⟨rfl, Nat.le_refl 0⟩
  | @enter n node visited s t work _ hwork hstep ih =>
    obtain ⟨left, ht, hscopes⟩ := step_enter hwork hstep
    have hbefore : s.leaves = work.count .leave := by
      rw [WalkState.leaves, hwork]
      rfl
    have hnone : ((v.arena.children node).map WalkStep.enter).count .leave = 0 :=
      List.count_eq_zero.2 (by simp)
    have hafter : t.leaves = (if left then 1 else 0) + work.count .leave := by
      rw [WalkState.leaves, ht, List.count_append, List.count_append, hnone]
      cases left <;> simp
    rw [hscopes, List.length_append, List.length_cons]
    cases left <;> simp at hafter ⊢ <;> omega
  | @leave n visited s t work _ hwork hstep ih =>
    obtain ⟨ht, hscopes⟩ := step_leave hwork hstep
    have hbefore : s.leaves = work.count .leave + 1 := by
      rw [WalkState.leaves, hwork, List.count_cons_self]
    have hafter : t.leaves = work.count .leave := by rw [WalkState.leaves, ht]
    rw [hscopes, List.length_tail]
    omega

/-- A run goes on from a state that is reached until its fuel is spent or no work is left. -/
theorem run (h : v.Reached n visited s) (fuel : Nat) :
    ∃ m visited', v.Reached (n + m) visited' (v.run fuel s) ∧
      (m = fuel ∨ v.step (v.run fuel s) = none) := by
  induction fuel generalizing n visited s with
  | zero => exact ⟨0, visited, h, .inl rfl⟩
  | succ fuel ih =>
    rw [WalkView.run]
    cases hstep : v.step s with
    | none => exact ⟨0, visited, h, .inr hstep⟩
    | some t =>
      have hnext : ∃ visited', v.Reached (n + 1) visited' t := by
        cases hwork : s.work with
        | nil =>
          obtain ⟨_, scopes, out⟩ := s
          subst hwork
          cases hstep
        | cons first work =>
          cases first with
          | leave => exact ⟨_, h.leave hwork hstep⟩
          | enter node => exact ⟨_, h.enter hwork hstep⟩
      obtain ⟨_, hnext⟩ := hnext
      obtain ⟨m, visited', hm, hend⟩ := ih hnext
      refine ⟨m + 1, visited', by rwa [Nat.add_right_comm] at hm, ?_⟩
      exact hend.imp_left (congrArg (· + 1))

end Reached

/-- Where nodes are listed once, the walk ends within its fuel and enters no node twice. -/
theorem reached_walk (h : v.arena.ListsOnce) :
    ∃ n visited, v.Reached n visited ⟨[], [], v.walk⟩ ∧ n ≤ v.fuel ∧ visited.Nodup := by
  obtain ⟨n, visited, hreached, hend⟩ := (Reached.start (v := v)).run v.fuel
  rw [Nat.zero_add] at hreached
  unfold walk
  generalize v.run v.fuel { work := [.enter 0] } = last at hreached hend ⊢
  obtain ⟨hscopes, hsteps⟩ := hreached.steps_le
  have hvisited := hreached.traversal.length_le h
  have hlt : n < v.fuel := by
    unfold fuel
    omega
  obtain ⟨work, scopes, out⟩ := last
  obtain rfl : work = [] := work_eq_nil_of_step (hend.resolve_left (Nat.ne_of_lt hlt))
  obtain rfl : scopes = [] := List.length_eq_zero_iff.1 hscopes
  exact ⟨n, visited, hreached, Nat.le_of_lt hlt, (hreached.traversal.nodup h).of_append_left⟩

end WalkView

namespace Arena

variable {α : Type}

/-- **Whatever is added to a root, nodes are listed once.** A node is listed by the index that it
names unless that is beyond its own, so children come after the node that lists them if no node
names its own index, and in any case below the root. No node is listed twice and the root never, so
every traversal from the root visits a node at most once, and the walk is such a traversal. -/
theorem addAll_forest (root : α) (xs : List (Addition α)) :
    let a := (Arena.new root).addAll xs
    (∀ i c, c ∈ a.children i ↔ ∃ k x, xs[k]? = some x ∧ c = k + 1 ∧ x.parent = i ∧ i ≤ c) ∧
    ((∀ i c, c ∈ a.children i → i < c) ↔ ∀ k x, xs[k]? = some x → x.parent ≠ k + 1) ∧
    (∀ i c, a.Below 0 i → c ∈ a.children i → i < c) ∧
    (∀ i, 0 ∉ a.children i ∧ (a.children i).Nodup ∧
      ∀ j c, c ∈ a.children i → c ∈ a.children j → i = j) ∧
    (∀ visited ahead, a.Traversal visited ahead →
      (visited ++ ahead).Nodup ∧ visited.length ≤ a.size) ∧
    ∀ v : WalkView α, v.arena = a →
      ∃ n visited, v.Reached n visited ⟨[], [], v.walk⟩ ∧ n ≤ v.fuel ∧ visited.Nodup := by
  intro a
  have ha : a.ListsOnce := listsOnce_addAll root xs
  have hmem : ∀ i c, c ∈ a.children i ↔
      ∃ k x, xs[k]? = some x ∧ c = k + 1 ∧ x.parent = i ∧ i ≤ c :=
    fun i c => mem_children_addAll root
  refine ⟨hmem, ⟨fun hlt k x hx hparent => ?_, fun hne i c hc => ?_⟩, fun i c hi hc => ?_,
    fun i => ⟨ha.root_notMem i, ha.nodup_children i, fun j c => ha.unique⟩,
    fun visited ahead h => ⟨h.nodup ha, h.length_le ha⟩, fun v hv => ?_⟩
  · have hself := (hmem (k + 1) (k + 1)).2 ⟨k, x, hx, rfl, hparent, Nat.le_refl _⟩
    exact Nat.lt_irrefl _ (hlt _ _ hself)
  · obtain ⟨k, x, hx, rfl, rfl, hle⟩ := (hmem i c).1 hc
    exact Nat.lt_of_le_of_ne hle (hne k x hx)
  · obtain ⟨k, x, hx, rfl, rfl, hle⟩ := (hmem i c).1 hc
    refine Nat.lt_of_le_of_ne hle fun heq => ha.notMem_children_self hi ?_
    rwa [← heq] at hc
  · exact WalkView.reached_walk (hv ▸ ha)

/-- The first node to be added lists itself if it names the index `1`. -/
theorem push_own_index :
    let a := (Arena.new "root").push 1 .call ⟨1, 0⟩ "self"
    a.children 1 = [1] ∧ ¬ ∀ i c, c ∈ a.children i → i < c := by
  intro a
  have hself : a.children 1 = [1] := by decide
  refine ⟨hself, fun hlt => ?_⟩
  exact Nat.lt_irrefl 1 (hlt 1 1 (by rw [hself]; exact List.mem_cons_self))

end Arena

end Calligraph
