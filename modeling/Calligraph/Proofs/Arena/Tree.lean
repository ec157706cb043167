import Mathlib.Data.List.Perm.Basic
import Mathlib.Data.List.Nodup
import Mathlib.Logic.Relation
import Calligraph.Arena

/-!
# Arenas that are trees

In a tree every node but the root is listed once, by one node with a smaller index. `preorder` reads
such an arena recursively: every node before what is below it, together with the nodes above it. It
meets exactly the nodes that can be reached from where it starts, each of them once.
-/

namespace Calligraph.Arena

variable {α : Type}

/-- There is a root, and every other node is a child of exactly one node and comes after it. -/
structure IsTree (a : Arena α) : Prop where
  root_lt : 0 < a.size
  lt_child : ∀ {i c : Nat}, c ∈ a.children i → i < c
  child_lt : ∀ {i c : Nat}, c ∈ a.children i → c < a.size
  nodup_children : ∀ i : Nat, (a.children i).Nodup
  parent : ∀ c : Nat, 0 < c → c < a.size → ∃! i, c ∈ a.children i

theorem lt_size_of_mem_children {a : Arena α} {i c : Nat} (h : c ∈ a.children i) : i < a.size := by
  rcases Nat.lt_or_ge i a.size with hi | hi
  · exact hi
  · have hn : a.nodes[i]? = none := Array.getElem?_eq_none hi
    simp [children, hn] at h

/-- Whether an arena is a tree can be told from its nodes. -/
theorem isTree_iff (a : Arena α) :
    a.IsTree ↔ 0 < a.size ∧
      (∀ i < a.size, (a.children i).Nodup ∧ ∀ c ∈ a.children i, i < c ∧ c < a.size ∧
        ∀ j < a.size, c ∈ a.children j → j = i) ∧
      ∀ c < a.size, 0 < c → ∃ i < a.size, c ∈ a.children i := by
  constructor
  · intro h
    refine ⟨h.root_lt, fun i _ => ⟨h.nodup_children i, fun c hc => ?_⟩, fun c hlt hpos => ?_⟩
    · refine ⟨h.lt_child hc, h.child_lt hc, fun j _ hj => ?_⟩
      exact (h.parent c (Nat.zero_lt_of_lt (h.lt_child hc)) (h.child_lt hc)).unique hj hc
    · obtain ⟨i, hi, -⟩ := h.parent c hpos hlt
      exact ⟨i, lt_size_of_mem_children hi, hi⟩
  · rintro ⟨hroot, hlist, hparent⟩
    have hmem {i c : Nat} (hc : c ∈ a.children i) := (hlist i (lt_size_of_mem_children hc)).2 c hc
    refine ⟨hroot, fun hc => (hmem hc).1, fun hc => (hmem hc).2.1, fun i => ?_, fun c hpos hlt => ?_⟩
    · rcases Nat.lt_or_ge i a.size with hi | hi
      · exact (hlist i hi).1
      · have hn : a.nodes[i]? = none := Array.getElem?_eq_none hi
        simp [children, hn]
    · obtain ⟨i, -, hi⟩ := hparent c hlt hpos
      exact ⟨i, hi, fun j hj => (hmem hi).2.2 j (lt_size_of_mem_children hj) hj⟩

instance (a : Arena α) : Decidable a.IsTree :=
  decidable_of_iff' _ a.isTree_iff

/-- `node` is `start` or somewhere below it. -/
abbrev Below (a : Arena α) (start node : Nat) : Prop :=
  Relation.ReflTransGen (fun i c => c ∈ a.children i) start node

namespace IsTree

variable {a : Arena α}

/-- The nodes at and below `node`, each with the nodes above it, the innermost first. Those above
`node` itself are `above`. -/
def preorder (h : a.IsTree) (above : List Nat) (node : Nat) : List (Nat × List Nat) :=
  (node, above) :: (a.children node).attach.flatMap fun c => h.preorder (node :: above) c.1
termination_by a.size - node
decreasing_by
  have := h.lt_child c.2
  have := h.child_lt c.2
  omega

theorem preorder_eq (h : a.IsTree) (above : List Nat) (node : Nat) :
    h.preorder above node =
      (node, above) :: (a.children node).flatMap (h.preorder (node :: above)) := by
  rw [preorder]
  congr 1
  conv_rhs => rw [← List.attach_map_subtype_val (a.children node), List.flatMap_map]

/-- What holds of a node when it holds of its children holds of every node. -/
theorem induct (h : a.IsTree) {P : Nat → Prop}
    (step : ∀ node, (∀ c ∈ a.children node, P c) → P node) (node : Nat) : P node := by
  induction hn : a.size - node using Nat.strongRecOn generalizing node with
  | ind n ih =>
    refine step node fun c hc => ih (a.size - c) ?_ c rfl
    have := h.lt_child hc
    have := h.child_lt hc
    omega

/-- The nodes that `preorder` meets. -/
def nodesFrom (h : a.IsTree) (node : Nat) : List Nat :=
  (h.preorder [] node).map Prod.fst

theorem map_fst_preorder (h : a.IsTree) (above : List Nat) (node : Nat) :
    (h.preorder above node).map Prod.fst = h.nodesFrom node := by
  induction node using h.induct generalizing above with
  | step node ih =>
    simp only [nodesFrom, h.preorder_eq _ node, List.map_cons, List.map_flatMap]
    congr 1
    refine List.flatMap_congr fun c hc => ?_
    rw [ih c hc, ih c hc]

theorem nodesFrom_eq (h : a.IsTree) (node : Nat) :
    h.nodesFrom node = node :: (a.children node).flatMap h.nodesFrom := by
  simp only [nodesFrom, h.preorder_eq _ node, List.map_cons, List.map_flatMap]
  congr 1
  exact List.flatMap_congr fun c _ => h.map_fst_preorder _ c

theorem mem_nodesFrom (h : a.IsTree) {start node : Nat} :
    node ∈ h.nodesFrom start ↔ a.Below start node := by
  constructor
  · induction start using h.induct with
    | step start ih =>
      rw [h.nodesFrom_eq, List.mem_cons, List.mem_flatMap]
      rintro (rfl | ⟨c, hc, hm⟩)
      · exact .refl
      · exact .head hc (ih c hc hm)
  · intro hb
    induction hb using Relation.ReflTransGen.head_induction_on with
    | refl => rw [h.nodesFrom_eq]; exact List.mem_cons_self ..
    | head hc _ ih =>
      rw [h.nodesFrom_eq]
      exact List.mem_cons_of_mem _ (List.mem_flatMap.2 ⟨_, hc, ih⟩)

theorem lt_size_of_mem_nodesFrom_root (h : a.IsTree) {node : Nat} (hm : node ∈ h.nodesFrom 0) :
    node < a.size := by
  rcases Relation.ReflTransGen.cases_tail (h.mem_nodesFrom.1 hm) with rfl | ⟨i, -, hc⟩
  · exact h.root_lt
  · exact h.child_lt hc

/-- Apart from the start, the nodes met are the children of the nodes met. -/
theorem nodesFrom_perm (h : a.IsTree) (node : Nat) :
    (h.nodesFrom node).Perm (node :: (h.nodesFrom node).flatMap a.children) := by
  induction node using h.induct with
  | step node ih =>
    rw [h.nodesFrom_eq, List.flatMap_cons]
    refine .cons _ ?_
    calc (a.children node).flatMap h.nodesFrom
      _ |>.Perm ((a.children node).flatMap fun c =>
          [c] ++ (h.nodesFrom c).flatMap a.children) := .flatMap_left _ ih
      _ |>.Perm ((a.children node).flatMap (fun c => [c]) ++
          (a.children node).flatMap fun c => (h.nodesFrom c).flatMap a.children) :=
        (List.flatMap_append_perm ..).symm
      _ |>.Perm (a.children node ++ ((a.children node).flatMap h.nodesFrom).flatMap a.children) := by
        rw [List.flatMap_assoc]
        simp

theorem count_children (h : a.IsTree) {i c : Nat} (hc : c ∈ a.children i) (j : Nat) :
    (a.children j).count c = if j = i then 1 else 0 := by
  obtain ⟨q, -, hq⟩ := h.parent c (by have := h.lt_child hc; omega) (h.child_lt hc)
  split
  · next e => subst e; exact List.count_eq_one_of_mem (h.nodup_children _) hc
  · next e =>
    refine List.count_eq_zero.2 fun hj => e ?_
    exact (hq j hj).trans (hq i hc).symm

/-- Among the children of some nodes, a child is listed as often as its parent is one of them. -/
theorem count_flatMap_children (h : a.IsTree) {i c : Nat} (hc : c ∈ a.children i)
    (nodes : List Nat) : (nodes.flatMap a.children).count c = nodes.count i := by
  induction nodes with
  | nil => rfl
  | cons j rest ih =>
    rw [List.flatMap_cons, List.count_append, ih, h.count_children hc, List.count_cons]
    simp [Nat.add_comm]

/-- No node is met twice: one other than the root is met as often as its parent, which has a smaller
index. -/
theorem nodup_nodesFrom_root (h : a.IsTree) : (h.nodesFrom 0).Nodup := by
  rw [List.nodup_iff_count_le_one]
  intro node
  induction node using Nat.strongRecOn with
  | ind node ih =>
    rw [(h.nodesFrom_perm 0).count_eq, List.count_cons]
    by_cases hp : ∃ i, node ∈ a.children i
    · obtain ⟨i, hi⟩ := hp
      have hne : (0 == node) = false := by have := h.lt_child hi; simp; omega
      rw [h.count_flatMap_children hi, hne]
      simpa using ih i (h.lt_child hi)
    · have hzero : ((h.nodesFrom 0).flatMap a.children).count node = 0 :=
        List.count_eq_zero.2 fun hm => hp ⟨_, (List.mem_flatMap.1 hm).choose_spec.2⟩
      rw [hzero]
      split <;> simp

theorem length_preorder_root (h : a.IsTree) : (h.preorder [] 0).length ≤ a.size := by
  have hsub : ∀ node ∈ h.nodesFrom 0, node ∈ List.range a.size :=
    fun node hm => List.mem_range.2 (h.lt_size_of_mem_nodesFrom_root hm)
  have hlen := h.nodup_nodesFrom_root.length_le_of_subset hsub
  simpa [nodesFrom] using hlen

/-- The nodes above a node lead from it to the start and beyond, each a child of the next. -/
theorem isChain_preorder (h : a.IsTree) {start : Nat} {above : List Nat}
    (habove : (start :: above).IsChain fun c i => c ∈ a.children i) :
    ∀ x ∈ h.preorder above start, ((x.1 :: x.2).IsChain fun c i => c ∈ a.children i) ∧
      (start :: above) <:+ x.1 :: x.2 := by
  induction start using h.induct generalizing above with
  | step start ih =>
    intro x hx
    rw [h.preorder_eq, List.mem_cons, List.mem_flatMap] at hx
    rcases hx with rfl | ⟨c, hc, hx⟩
    · exact ⟨habove, List.suffix_rfl⟩
    · obtain ⟨hchain, hsuffix⟩ := ih c hc (habove.cons_cons hc) x hx
      exact ⟨hchain, (List.suffix_cons c _).trans hsuffix⟩

end IsTree

end Calligraph.Arena
