import Mathlib.Data.List.Nodup
import Mathlib.Data.List.Perm.Basic
import Calligraph.CallGraph

/-!
# What the builder holds

`Holds b f` says that the buffers of `b` are those of the units `u` with edges `f u`, in any order.
Adding a call changes `f` at its unit only (`Holds.accept`), the order of the buffers never matters
(`Holds.perm`), and the finished graph is `f` read in the order of the units (`Holds.edges_finish`).
-/

namespace Calligraph.GraphBuilder

/-- The edges of a unit among those of some calls. -/
def edgesOf (sites : List CallSite) (unit : Nat) : List Edge :=
  (sites.filter fun s => s.unit = unit).map CallSite.edge

theorem edgesOf_concat (sites : List CallSite) (site : CallSite) (unit : Nat) :
    edgesOf (sites ++ [site]) unit =
      edgesOf sites unit ++ if unit = site.unit then [site.edge] else [] := by
  by_cases h : site.unit = unit
  · simp [edgesOf, h]
  · simp [edgesOf, h, Ne.symm h]

/-- The buffers are those of the units that have edges, with these edges. -/
structure Holds (b : GraphBuilder) (f : Nat → List Edge) : Prop where
  nodup : (b.buffers.map Prod.fst).Nodup
  mem_iff : ∀ (u : Nat) (edges : Array Edge),
    (u, edges) ∈ b.buffers ↔ edges.toList = f u ∧ f u ≠ []

theorem holds_empty : Holds {} fun _ => [] :=
  ⟨.nil, by simp⟩

theorem Holds.perm {b c : GraphBuilder} {f : Nat → List Edge} (h : b.Holds f)
    (hp : b.buffers.Perm c.buffers) : c.Holds f :=
  ⟨(hp.map _).nodup_iff.1 h.nodup, fun u edges => hp.mem_iff.symm.trans (h.mem_iff u edges)⟩

/-! ## Adding a call -/

theorem mem_keys_put {unit u : Nat} {edge : Edge} {buffers : List (Nat × Array Edge)} :
    u ∈ (put unit edge buffers).map Prod.fst ↔ u = unit ∨ u ∈ buffers.map Prod.fst := by
  induction buffers with
  | nil => simp [put]
  | cons entry rest ih =>
    obtain ⟨k, old⟩ := entry
    simp only [put]
    split
    · next h => subst h; simp
    · rw [List.map_cons, List.mem_cons, ih, List.map_cons, List.mem_cons]
      exact or_left_comm

theorem nodup_keys_put {unit : Nat} {edge : Edge} {buffers : List (Nat × Array Edge)}
    (h : (buffers.map Prod.fst).Nodup) : ((put unit edge buffers).map Prod.fst).Nodup := by
  induction buffers with
  | nil => simp [put]
  | cons entry rest ih =>
    obtain ⟨k, old⟩ := entry
    obtain ⟨hk, hrest⟩ := List.nodup_cons.1 h
    simp only [put]
    split
    · exact h
    · next hne =>
      refine List.nodup_cons.2 ⟨fun hm => ?_, ih hrest⟩
      exact (mem_keys_put.1 hm).elim hne hk

theorem mem_put_of_ne {unit u : Nat} {edge : Edge} {edges : Array Edge}
    {buffers : List (Nat × Array Edge)} (hu : u ≠ unit) :
    (u, edges) ∈ put unit edge buffers ↔ (u, edges) ∈ buffers := by
  induction buffers with
  | nil => simp [put, hu]
  | cons entry rest ih =>
    obtain ⟨k, old⟩ := entry
    simp only [put]
    split
    · next h => subst h; simp [hu]
    · rw [List.mem_cons, List.mem_cons, ih]

theorem mem_put_self {unit : Nat} {edge : Edge} {edges : Array Edge}
    {buffers : List (Nat × Array Edge)} (h : (buffers.map Prod.fst).Nodup) :
    (unit, edges) ∈ put unit edge buffers ↔
      (∃ old, (unit, old) ∈ buffers ∧ edges = old.push edge) ∨
        (unit ∉ buffers.map Prod.fst ∧ edges = #[edge]) := by
  induction buffers with
  | nil => simp [put]
  | cons entry rest ih =>
    obtain ⟨k, old⟩ := entry
    obtain ⟨hk, hrest⟩ := List.nodup_cons.1 h
    simp only [put]
    split
    · next hu =>
      -- The buffer is the first one, so no other is of this unit.
      subst hu
      have hno : ∀ es, (k, es) ∉ rest := fun es hm =>
        hk (List.mem_map.2 ⟨_, hm, rfl⟩)
      simp [hno]
    · next hu => simp [ih hrest, Ne.symm hu]

theorem Holds.accept {b : GraphBuilder} {f : Nat → List Edge} (h : b.Holds f) (site : CallSite) :
    (b.accept site).Holds fun u => f u ++ if u = site.unit then [site.edge] else [] := by
  refine ⟨nodup_keys_put h.nodup, fun u edges => ?_⟩
  by_cases hu : u = site.unit
  · subst hu
    rw [if_pos rfl]
    refine (mem_put_self h.nodup).trans ⟨?_, ?_⟩
    · rintro (⟨old, hold, rfl⟩ | ⟨hnone, rfl⟩)
      · simp [((h.mem_iff _ _).1 hold).1]
      · have hnil : f site.unit = [] := by
          by_contra hne
          exact hnone (List.mem_map_of_mem ((h.mem_iff _ (f site.unit).toArray).2 ⟨rfl, hne⟩))
        simp [hnil]
    · rintro ⟨hedges, -⟩
      by_cases hnil : f site.unit = []
      · refine .inr ⟨fun hm => ?_, by rw [← Array.toList_inj, hedges, hnil]; rfl⟩
        obtain ⟨⟨u, old⟩, hold, rfl⟩ := List.mem_map.1 hm
        exact ((h.mem_iff _ _).1 hold).2 hnil
      · refine .inl ⟨(f site.unit).toArray, (h.mem_iff _ _).2 ⟨rfl, hnil⟩, ?_⟩
        rw [← Array.toList_inj, hedges]
        simp
  · rw [if_neg hu, List.append_nil]
    exact (mem_put_of_ne hu).trans (h.mem_iff u edges)

/-! ## The finished graph -/

theorem pairwise_mergeSort_buffers (b : GraphBuilder) :
    (b.buffers.mergeSort fun x y => x.1 ≤ y.1).Pairwise fun x y => x.1 ≤ y.1 := by
  have hsorted : (b.buffers.mergeSort fun x y => x.1 ≤ y.1).Pairwise
      fun x y => decide (x.1 ≤ y.1) = true := by
    refine List.pairwise_mergeSort (fun x y z hxy hyz => ?_) (fun x y => ?_) b.buffers
    · simp only [decide_eq_true_eq] at *
      omega
    · simp only [Bool.or_eq_true, decide_eq_true_eq]
      omega
  exact hsorted.imp fun hle => by simpa using hle

/-- Sorted by unit, the buffers are those of the units with edges in their order. -/
theorem Holds.mergeSort_buffers {b : GraphBuilder} {f : Nat → List Edge} {n : Nat} (h : b.Holds f)
    (hn : ∀ u, n ≤ u → f u = []) :
    (b.buffers.mergeSort fun x y => x.1 ≤ y.1) =
      ((List.range n).filter fun u => f u ≠ []).map fun u => (u, (f u).toArray) := by
  have hperm : (b.buffers.mergeSort fun x y => x.1 ≤ y.1).Perm
      (((List.range n).filter fun u => f u ≠ []).map fun u => (u, (f u).toArray)) := by
    refine (List.mergeSort_perm ..).trans ((List.perm_ext_iff_of_nodup ?_ ?_).2 ?_)
    · exact h.nodup.of_map
    · exact (List.nodup_range.filter _).map fun u w e => congrArg Prod.fst e
    · rintro ⟨u, edges⟩
      rw [h.mem_iff]
      simp only [List.mem_map, List.mem_filter, List.mem_range, decide_eq_true_eq, Prod.mk.injEq]
      constructor
      · rintro ⟨hedges, hne⟩
        have hlt : u < n := Nat.lt_of_not_le fun hle => hne (hn u hle)
        exact ⟨u, ⟨hlt, hne⟩, rfl, by rw [← hedges]⟩
      · rintro ⟨w, ⟨-, hne⟩, rfl, rfl⟩
        exact ⟨rfl, hne⟩
  have hrange : (((List.range n).filter fun u => f u ≠ []).map fun u =>
      (u, (f u).toArray)).Pairwise fun x y => x.1 ≤ y.1 := by
    rw [List.pairwise_map]
    exact List.pairwise_le_range.filter _
  refine List.Perm.eq_of_pairwise ?_ b.pairwise_mergeSort_buffers hrange hperm
  -- Two buffers of one unit are the same buffer.
  rintro ⟨u, es⟩ ⟨w, es'⟩ hu hw hle hge
  obtain rfl : u = w := Nat.le_antisymm hle hge
  have hu := (h.mem_iff _ _).1 ((List.mergeSort_perm ..).mem_iff.1 hu)
  have hw := (h.mem_iff _ _).1 ((List.mergeSort_perm ..).mem_iff.1 (hperm.mem_iff.2 hw))
  rw [Prod.mk.injEq, ← Array.toList_inj, hu.1, hw.1]
  exact ⟨rfl, rfl⟩

theorem Holds.edges_finish {b : GraphBuilder} {f : Nat → List Edge} {n : Nat} (h : b.Holds f)
    (hn : ∀ u, n ≤ u → f u = []) : b.finish.edges = (List.range n).flatMap f := by
  rw [finish, h.mergeSort_buffers hn, List.flatMap_map]
  induction List.range n with
  | nil => rfl
  | cons u rest ih =>
    rw [List.flatMap_cons, ← ih]
    by_cases hu : f u = []
    · simp [hu]
    · simp [hu]

end Calligraph.GraphBuilder
