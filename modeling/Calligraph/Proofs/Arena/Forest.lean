import Mathlib.Data.List.Induction
import Calligraph.Proofs.Arena.Reading

/-!
# Arenas of any additions

A node may name any index as its parent. One that names an index beyond its own is listed nowhere,
and one that names its own index lists itself, since it is there before its parent is looked up
(`mem_children_addAll`). Either way a node is listed at most once and the root never. This alone
makes every traversal from the root end without meeting a node twice (`Traversal.nodup`), and keeps
it away from nodes that list themselves (`ListsOnce.notMem_children_self`).
-/

namespace Calligraph

theorem getElem?_concat_eq_some_iff {α : Type} {xs : List α} {x y : α} {k : Nat} :
    (xs ++ [y])[k]? = some x ↔ xs[k]? = some x ∨ (k = xs.length ∧ y = x) := by
  rcases Nat.lt_trichotomy k xs.length with hk | rfl | hk
  · simp [List.getElem?_append_left hk, Nat.ne_of_lt hk]
  · simp
  · have hnone : (xs ++ [y])[k]? = none := List.getElem?_eq_none (by simp; omega)
    simp [hnone, List.getElem?_eq_none (Nat.le_of_lt hk), Nat.ne_of_gt hk]

/-- A node to be added, and the index that it names as its parent. -/
structure Addition (α : Type) where
  parent : Nat
  kind : NodeKind
  position : Position
  payload : α

/-- What the node will be apart from its children. -/
def Addition.entry {α : Type} (x : Addition α) : NodeKind × Position × α :=
  (x.kind, x.position, x.payload)

namespace Arena

variable {α : Type} {a : Arena α}

def add (a : Arena α) (x : Addition α) : Arena α :=
  a.push x.parent x.kind x.position x.payload

/-- Adds nodes one after the other. -/
def addAll (a : Arena α) (xs : List (Addition α)) : Arena α :=
  xs.foldl add a

theorem addAll_concat (a : Arena α) (xs : List (Addition α)) (x : Addition α) :
    a.addAll (xs ++ [x]) = (a.addAll xs).add x :=
  List.foldl_concat ..

/-! ## One addition -/

theorem getElem?_nodes_add (a : Arena α) (x : Addition α) (i : Nat) :
    (a.add x).nodes[i]? =
      (if i = a.size then some ⟨x.kind, x.position, #[], x.payload⟩ else a.nodes[i]?).map fun n =>
        if x.parent = i then { n with children := n.children.push a.size } else n := by
  simp only [add, push, Array.getElem?_modify, Array.getElem?_push, size]
  by_cases hparent : x.parent = i
  · simp only [hparent, ↓reduceIte]
    rfl
  · simp only [hparent, ↓reduceIte, Option.map_id']
    rfl

/-- A node is listed by its parent if that is there, or is the node itself. -/
theorem children_add (a : Arena α) (x : Addition α) (i : Nat) :
    (a.add x).children i =
      a.children i ++ if x.parent = i ∧ i ≤ a.size then [a.size] else [] := by
  unfold children
  rw [getElem?_nodes_add]
  rcases Nat.lt_trichotomy i a.size with hi | hi | hi
  · obtain ⟨n, hn⟩ : ∃ n, a.nodes[i]? = some n := ⟨_, Array.getElem?_eq_getElem hi⟩
    by_cases hparent : x.parent = i <;> simp [hn, hparent, Nat.ne_of_lt hi, Nat.le_of_lt hi]
  · subst hi
    have hn : a.nodes[a.size]? = none := Array.getElem?_eq_none (Nat.le_refl _)
    by_cases hparent : x.parent = a.size <;> simp [hn, hparent]
  · have hn : a.nodes[i]? = none := Array.getElem?_eq_none (Nat.le_of_lt hi)
    simp [hn, Nat.ne_of_gt hi, Nat.not_le_of_lt hi]

theorem entry_add (a : Arena α) (x : Addition α) (i : Nat) :
    (a.add x).nodes[i]?.map Node.entry =
      if i = a.size then some x.entry else a.nodes[i]?.map Node.entry := by
  have hsame : (Node.entry ∘ fun n : Node α =>
      if x.parent = i then { n with children := n.children.push a.size } else n) = Node.entry := by
    funext n
    dsimp only [Function.comp]
    split <;> rfl
  rw [getElem?_nodes_add, Option.map_map, hsame]
  split <;> rfl

/-! ## Any additions to the root -/

theorem children_new (root : α) (i : Nat) : (Arena.new root).children i = [] := by
  cases i with
  | zero => rfl
  | succ i => exact children_eq_nil (Nat.le_add_left 1 i)

theorem size_addAll (root : α) (xs : List (Addition α)) :
    ((Arena.new root).addAll xs).size = xs.length + 1 := by
  induction xs using List.reverseRecOn with
  | nil => rfl
  | append_singleton xs x ih => rw [addAll_concat, add, size_push, ih, List.length_append]; rfl

theorem entry_addAll (root : α) {xs : List (Addition α)} {k : Nat} {x : Addition α}
    (h : xs[k]? = some x) :
    ((Arena.new root).addAll xs).nodes[k + 1]?.map Node.entry = some x.entry := by
  induction xs using List.reverseRecOn with
  | nil => cases h
  | append_singleton xs y ih =>
    rw [addAll_concat, entry_add, size_addAll]
    rcases getElem?_concat_eq_some_iff.1 h with hx | ⟨rfl, rfl⟩
    · obtain ⟨hk, -⟩ := List.getElem?_eq_some_iff.1 hx
      rw [if_neg (by omega)]
      exact ih hx
    · rw [if_pos rfl]

/-- Apart from its children, a node stays what it was when it was added. -/
theorem node_addAll (root : α) {xs : List (Addition α)} {k : Nat} {x : Addition α}
    (h : xs[k]? = some x) :
    ((Arena.new root).addAll xs).kind (k + 1) = x.kind ∧
      ((Arena.new root).addAll xs).position (k + 1) = x.position ∧
      ((Arena.new root).addAll xs).payload? (k + 1) = some x.payload := by
  obtain ⟨n, hn, hentry⟩ := Option.map_eq_some_iff.1 (entry_addAll root h)
  obtain ⟨hkind, hposition, hpayload⟩ : n.kind = x.kind ∧ n.position = x.position ∧
      n.payload = x.payload := by
    simpa [Node.entry, Addition.entry] using hentry
  simp [kind, position, payload?, hn, hkind, hposition, hpayload]

/-- A node is listed by the index that it names, unless that is beyond its own. -/
theorem mem_children_addAll (root : α) {xs : List (Addition α)} {i c : Nat} :
    c ∈ ((Arena.new root).addAll xs).children i ↔
      ∃ k x, xs[k]? = some x ∧ c = k + 1 ∧ x.parent = i ∧ i ≤ c := by
  induction xs using List.reverseRecOn with
  | nil => simp [addAll, children_new]
  | append_singleton xs y ih =>
    have hlast : c ∈ (if y.parent = i ∧ i ≤ xs.length + 1 then [xs.length + 1] else []) ↔
        c = xs.length + 1 ∧ y.parent = i ∧ i ≤ c := by
      split
      · next hparent => simp +contextual [hparent]
      · next hparent =>
        simp only [List.not_mem_nil, false_iff]
        rintro ⟨rfl, hlisted⟩
        exact hparent hlisted
    rw [addAll_concat, children_add, List.mem_append, ih, size_addAll, hlast]
    constructor
    · rintro (⟨k, x, hx, hlisted⟩ | ⟨rfl, hlisted⟩)
      · exact ⟨k, x, getElem?_concat_eq_some_iff.2 (.inl hx), hlisted⟩
      · exact ⟨xs.length, y, getElem?_concat_eq_some_iff.2 (.inr ⟨rfl, rfl⟩), rfl, hlisted⟩
    · rintro ⟨k, x, hx, rfl, hlisted⟩
      rcases getElem?_concat_eq_some_iff.1 hx with hx | ⟨rfl, rfl⟩
      · exact .inl ⟨k, x, hx, rfl, hlisted⟩
      · exact .inr ⟨rfl, hlisted⟩

theorem pairwise_children_addAll (root : α) (xs : List (Addition α)) (i : Nat) :
    (((Arena.new root).addAll xs).children i).Pairwise (· < ·) := by
  induction xs using List.reverseRecOn with
  | nil => simp [addAll, children_new]
  | append_singleton xs y ih =>
    rw [addAll_concat, children_add, size_addAll]
    refine List.pairwise_append.2 ⟨ih, by split <;> simp, fun c hc d hd => ?_⟩
    obtain ⟨k, x, hx, rfl, -⟩ := (mem_children_addAll root).1 hc
    obtain ⟨hk, -⟩ := List.getElem?_eq_some_iff.1 hx
    have hd : d = xs.length + 1 := by
      split at hd
      · exact List.mem_singleton.1 hd
      · cases hd
    omega

/-! ## Nodes that are listed once -/

/-- No node is listed twice, and the root is not listed. -/
structure ListsOnce (a : Arena α) : Prop where
  root_lt : 0 < a.size
  root_notMem : ∀ i, 0 ∉ a.children i
  child_lt : ∀ {i c : Nat}, c ∈ a.children i → c < a.size
  nodup_children : ∀ i, (a.children i).Nodup
  unique : ∀ {i j c : Nat}, c ∈ a.children i → c ∈ a.children j → i = j

theorem listsOnce_addAll (root : α) (xs : List (Addition α)) :
    ((Arena.new root).addAll xs).ListsOnce where
  root_lt := by rw [size_addAll]; omega
  root_notMem i h := by
    obtain ⟨k, x, -, hc, -⟩ := (mem_children_addAll root).1 h
    cases hc
  child_lt h := by
    obtain ⟨k, x, hx, rfl, -⟩ := (mem_children_addAll root).1 h
    obtain ⟨hk, -⟩ := List.getElem?_eq_some_iff.1 hx
    rw [size_addAll]
    omega
  nodup_children i := (pairwise_children_addAll root xs i).imp Nat.ne_of_lt
  unique {i j c} hi hj := by
    obtain ⟨k, x, hx, rfl, rfl, -⟩ := (mem_children_addAll root).1 hi
    obtain ⟨l, y, hy, hl, rfl, -⟩ := (mem_children_addAll root).1 hj
    obtain rfl : k = l := by omega
    rw [Option.some.inj (hx.symm.trans hy)]

namespace ListsOnce

/-- Nodes that list themselves are out of reach: what leads to them is they alone. -/
theorem notMem_children_self (h : a.ListsOnce) {node : Nat} (hb : a.Below 0 node) :
    node ∉ a.children node := by
  induction hb with
  | refl => exact h.root_notMem 0
  | tail _ hc ih =>
    intro hself
    obtain rfl := h.unique hc hself
    exact ih hself

theorem nodup_flatMap_children (h : a.ListsOnce) {nodes : List Nat} (hnodes : nodes.Nodup) :
    (0 :: nodes.flatMap a.children).Nodup := by
  refine List.nodup_cons.2 ⟨fun hm => ?_, List.nodup_flatMap.2 ⟨fun i _ => h.nodup_children i, ?_⟩⟩
  · obtain ⟨i, -, hi⟩ := List.mem_flatMap.1 hm
    exact h.root_notMem i hi
  · exact hnodes.imp fun hne c hi hj => hne (h.unique hi hj)

end ListsOnce

/-! ## Traversals -/

/-- A traversal from the root in any order, with the nodes it has visited, the last one first, and
those ahead of it. A visit takes one of the nodes ahead and puts its children among the others. -/
inductive Traversal (a : Arena α) : List Nat → List Nat → Prop
  | start : Traversal a [] [0]
  | visit {visited ahead others next : List Nat} {node : Nat} :
      Traversal a visited ahead → ahead.Perm (node :: others) →
      next.Perm (a.children node ++ others) → Traversal a (node :: visited) next

namespace Traversal

variable {visited ahead : List Nat}

/-- Apart from the root, what a traversal knows of are the children of the nodes it has visited. -/
theorem perm (h : a.Traversal visited ahead) :
    (visited ++ ahead).Perm (0 :: visited.flatMap a.children) := by
  induction h with
  | start => exact .refl _
  | @visit visited ahead others next node _ hahead hnext ih =>
    calc (node :: visited) ++ next
      _ |>.Perm (node :: visited ++ (a.children node ++ others)) := hnext.append_left _
      _ |>.Perm (a.children node ++ (node :: visited ++ others)) := List.perm_append_comm_assoc ..
      _ |>.Perm (a.children node ++ (visited ++ node :: others)) :=
        List.perm_middle.symm.append_left _
      _ |>.Perm (a.children node ++ (visited ++ ahead)) :=
        (hahead.symm.append_left _).append_left _
      _ |>.Perm (a.children node ++ 0 :: visited.flatMap a.children) := ih.append_left _
      _ |>.Perm (0 :: (node :: visited).flatMap a.children) := List.perm_middle

theorem nodup (h : a.Traversal visited ahead) (ha : a.ListsOnce) : (visited ++ ahead).Nodup := by
  induction h with
  | start => exact List.nodup_singleton 0
  | @visit visited ahead others next node hbefore hahead hnext ih =>
    -- The node was ahead, so it was not visited before, and the children of what is visited now
    -- are all different.
    have hnew : (visited ++ node :: others).Nodup := (hahead.append_left visited).nodup_iff.1 ih
    have hvisited : (node :: visited).Nodup := by
      refine List.nodup_cons.2 ⟨fun hm => ?_, hnew.of_append_left⟩
      exact (List.nodup_append.1 hnew).2.2 node hm node List.mem_cons_self rfl
    exact (hbefore.visit hahead hnext).perm.nodup_iff.2 (ha.nodup_flatMap_children hvisited)

theorem lt_size (h : a.Traversal visited ahead) (ha : a.ListsOnce) {node : Nat}
    (hnode : node ∈ visited ++ ahead) : node < a.size := by
  rcases List.mem_cons.1 (h.perm.mem_iff.1 hnode) with rfl | hm
  · exact ha.root_lt
  · obtain ⟨i, -, hi⟩ := List.mem_flatMap.1 hm
    exact ha.child_lt hi

/-- A traversal makes at most one visit for each node. -/
theorem length_le (h : a.Traversal visited ahead) (ha : a.ListsOnce) :
    visited.length ≤ a.size := by
  have hsub : visited ⊆ List.range a.size := fun node hm =>
    List.mem_range.2 (h.lt_size ha (List.mem_append_left _ hm))
  simpa using (h.nodup ha).of_append_left.length_le_of_subset hsub

end Traversal

end Arena

end Calligraph
