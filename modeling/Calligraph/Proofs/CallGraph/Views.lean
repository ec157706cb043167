import Mathlib.Algebra.GroupWithZero.Nat
import Calligraph.CallGraph
import Calligraph.Proofs.FirstOccurrence

/-!
# Views of a call graph

A graph is seen as the symbols at the ends of its edges, as the callees of each symbol and as the
callers of each symbol. The last two list the other ends of the edges that have the symbol at one
end, so they count the same edges, and going through all symbols they give every edge once
(`CallGraph.views_agree`).
-/

namespace Calligraph.CallGraph

variable {edges : List Edge} {near far : Edge → Symbol}

/-! ## Edges by one of their ends -/

/-- The far ends of the edges with a symbol at the near end. -/
def across (edges : List Edge) (near far : Edge → Symbol) (s : Symbol) : List Symbol :=
  (edges.filter fun e => near e == s).map far

theorem count_across (edges : List Edge) (near far : Edge → Symbol) (s t : Symbol) :
    (across edges near far s).count t = edges.countP fun e => near e == s && far e == t := by
  rw [across, List.count_eq_countP, List.countP_map, List.countP_filter]
  exact List.countP_congr fun e _ => by simp [and_comm]

/-- Taking out the edges of one symbol does not change those of another. -/
theorem across_filter_ne {s t : Symbol} (h : t ≠ s) :
    across (edges.filter fun e => !(near e == s)) near far t = across edges near far t := by
  rw [across, across, List.filter_filter]
  congr 1
  refine List.filter_congr fun e _ => ?_
  by_cases hnear : near e = t
  · simp [hnear, h]
  · simp [hnear]

/-- Symbols that are all different and have all near ends among them give every far end once. -/
theorem flatMap_across_perm {symbols : List Symbol} (hnodup : symbols.Nodup)
    (hall : ∀ e ∈ edges, near e ∈ symbols) :
    (symbols.flatMap (across edges near far)).Perm (edges.map far) := by
  induction symbols generalizing edges with
  | nil =>
    obtain rfl : edges = [] := List.eq_nil_iff_forall_not_mem.2 fun e he => by simpa using hall e he
    exact .refl _
  | cons s rest ih =>
    obtain ⟨hs, hrest⟩ := List.nodup_cons.1 hnodup
    have hothers : ∀ e ∈ edges.filter (fun e => !(near e == s)), near e ∈ rest := by
      intro e he
      obtain ⟨he, hne⟩ := List.mem_filter.1 he
      exact (List.mem_cons.1 (hall e he)).resolve_left (by simpa using hne)
    have hsame : rest.flatMap (across edges near far) =
        rest.flatMap (across (edges.filter fun e => !(near e == s)) near far) := by
      refine List.flatMap_congr fun t ht => (across_filter_ne ?_).symm
      rintro rfl
      exact hs ht
    rw [List.flatMap_cons, hsame]
    calc across edges near far s ++ _
      _ |>.Perm ((edges.filter fun e => near e == s).map far ++
          (edges.filter fun e => !(near e == s)).map far) := (ih hrest hothers).append_left _
      _ |>.Perm (edges.map far) := by
        rw [← List.map_append]
        exact (List.filter_append_perm _ _).map far

/-! ## Views -/

variable (g : CallGraph)

theorem mem_symbols {s : Symbol} :
    s ∈ g.symbols ↔ ∃ e ∈ g.edges, s = e.caller ∨ s = e.callee := by
  simp [symbols, ends]

theorem count_calleesOf (a b : Symbol) : (g.calleesOf a).count b = g.edges.count ⟨a, b⟩ := by
  refine (count_across g.edges Edge.caller Edge.callee a b).trans ?_
  rw [List.count_eq_countP]
  exact List.countP_congr fun e _ => by cases e; simp

theorem count_callersOf (a b : Symbol) : (g.callersOf b).count a = g.edges.count ⟨a, b⟩ := by
  refine (count_across g.edges Edge.callee Edge.caller b a).trans ?_
  rw [List.count_eq_countP]
  exact List.countP_congr fun e _ => by cases e; simp [and_comm]

theorem flatMap_calleesOf_perm :
    (g.symbols.flatMap g.calleesOf).Perm (g.edges.map Edge.callee) :=
  flatMap_across_perm (nodup_eraseDups g.ends) fun e he =>
    g.mem_symbols.2 ⟨e, he, .inl rfl⟩

theorem flatMap_callersOf_perm :
    (g.symbols.flatMap g.callersOf).Perm (g.edges.map Edge.caller) :=
  flatMap_across_perm (nodup_eraseDups g.ends) fun e he =>
    g.mem_symbols.2 ⟨e, he, .inr rfl⟩

/-- **The views of a call graph agree.** Its symbols are the ends of its edges, each once and in the
order of the first occurrences. A symbol is a callee of another one as often as that is a caller of
it and as there are edges from that to it. All callees of all symbols are the callees of all edges,
and so are the callers. -/
theorem views_agree :
    g.symbols.Nodup ∧
    (∀ s, s ∈ g.symbols ↔ ∃ e ∈ g.edges, s = e.caller ∨ s = e.callee) ∧
    (g.symbols.Pairwise fun s t => g.ends.idxOf s < g.ends.idxOf t) ∧
    (∀ a b, (g.calleesOf a).count b = g.edges.count ⟨a, b⟩ ∧
      (g.callersOf b).count a = g.edges.count ⟨a, b⟩) ∧
    (g.symbols.flatMap g.calleesOf).Perm (g.edges.map Edge.callee) ∧
    (g.symbols.flatMap g.callersOf).Perm (g.edges.map Edge.caller) ∧
    (g.symbols.map fun s => (g.calleesOf s).length).sum = g.size ∧
    (g.symbols.map fun s => (g.callersOf s).length).sum = g.size := by
  refine ⟨nodup_eraseDups g.ends, fun s => g.mem_symbols, pairwise_idxOf_eraseDups g.ends,
    fun a b => ⟨g.count_calleesOf a b, g.count_callersOf a b⟩, g.flatMap_calleesOf_perm,
    g.flatMap_callersOf_perm, ?_, ?_⟩
  · rw [← List.length_flatMap, g.flatMap_calleesOf_perm.length_eq, List.length_map]
    rfl
  · rw [← List.length_flatMap, g.flatMap_callersOf_perm.length_eq, List.length_map]
    rfl

end Calligraph.CallGraph
