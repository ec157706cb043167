import Calligraph.Proofs.Arena.Tree

/-!
# Growing an arena

What `push` changes is the new node and the children of its parent. So an arena that grows by adding
nodes under nodes it has is a tree all the time, whether nodes are added one by one or as branches.
-/

namespace Calligraph.Arena

variable {α : Type} {a : Arena α}

/-! ## Adding a node -/

section Push

variable {parent : Nat} {k : NodeKind} {pos : Position} {x : α}

@[simp] theorem size_push : (a.push parent k pos x).size = a.size + 1 := by
  simp [push, size]

theorem getElem?_nodes_push (i : Nat) (h : parent < a.size) :
    (a.push parent k pos x).nodes[i]? =
      if i = parent then a.nodes[i]?.map fun n => { n with children := n.children.push a.size }
      else if i = a.size then some ⟨k, pos, #[], x⟩ else a.nodes[i]? := by
  have hne : parent ≠ a.nodes.size := Nat.ne_of_lt h
  simp only [push, Array.getElem?_modify, Array.getElem?_push, size]
  by_cases hi : parent = i
  · subst hi
    simp [hne]
  · simp [hi, Ne.symm hi]
    rfl

/-- Apart from children, the nodes of an arena stay as they are. -/
theorem map_nodes_push {β : Type} {f : Node α → β}
    (hf : ∀ (n : Node α) (children : Array Nat), f { n with children } = f n)
    (i : Nat) (h : parent < a.size) :
    (a.push parent k pos x).nodes[i]?.map f =
      if i = a.size then some (f ⟨k, pos, #[], x⟩) else a.nodes[i]?.map f := by
  rw [getElem?_nodes_push i h]
  split
  · next hi =>
    subst hi
    rw [if_neg (Nat.ne_of_lt h), Option.map_map]
    exact Option.map_congr fun n _ => hf n _
  · split <;> rfl

theorem kind_push (i : Nat) (h : parent < a.size) :
    (a.push parent k pos x).kind i = if i = a.size then k else a.kind i := by
  rw [kind, map_nodes_push (fun _ _ => rfl) i h]
  split <;> rfl

theorem position_push (i : Nat) (h : parent < a.size) :
    (a.push parent k pos x).position i = if i = a.size then pos else a.position i := by
  rw [position, map_nodes_push (fun _ _ => rfl) i h]
  split <;> rfl

theorem payload?_push (i : Nat) (h : parent < a.size) :
    (a.push parent k pos x).payload? i = if i = a.size then some x else a.payload? i :=
  map_nodes_push (fun _ _ => rfl) i h

theorem children_eq_nil {i : Nat} (h : a.size ≤ i) : a.children i = [] := by
  have hn : a.nodes[i]? = none := Array.getElem?_eq_none h
  simp [children, hn]

theorem children_push (i : Nat) (h : parent < a.size) :
    (a.push parent k pos x).children i =
      a.children i ++ if i = parent then [a.size] else [] := by
  by_cases hi : i = parent
  · obtain ⟨n, hn⟩ : ∃ n, a.nodes[i]? = some n := ⟨_, Array.getElem?_eq_getElem (hi ▸ h)⟩
    unfold children
    rw [getElem?_nodes_push i h, if_pos hi, if_pos hi, hn]
    simp
  · rw [if_neg hi, List.append_nil]
    by_cases hs : i = a.size
    · rw [children_eq_nil (Nat.le_of_eq hs.symm)]
      unfold children
      rw [getElem?_nodes_push i h, if_neg hi, if_pos hs]
      rfl
    · unfold children
      rw [getElem?_nodes_push i h, if_neg hi, if_neg hs]

theorem mem_children_push {i c : Nat} (h : parent < a.size) :
    c ∈ (a.push parent k pos x).children i ↔ c ∈ a.children i ∨ (i = parent ∧ c = a.size) := by
  rw [children_push i h, List.mem_append]
  by_cases hi : i = parent <;> simp [hi]

/-- A tree with a node added under one of its nodes is a tree. -/
theorem IsTree.push (ha : a.IsTree) (h : parent < a.size) : (a.push parent k pos x).IsTree where
  root_lt := by rw [size_push]; omega
  lt_child hc := by
    rcases (mem_children_push h).1 hc with hc | ⟨rfl, rfl⟩
    · exact ha.lt_child hc
    · exact h
  child_lt hc := by
    rw [size_push]
    rcases (mem_children_push h).1 hc with hc | ⟨-, rfl⟩
    · have := ha.child_lt hc
      omega
    · omega
  nodup_children i := by
    rw [children_push i h]
    split
    · refine List.nodup_append.2 ⟨ha.nodup_children i, by simp, fun c hc d hd e => ?_⟩
      have := ha.child_lt hc
      rw [List.mem_singleton] at hd
      omega
    · simpa using ha.nodup_children i
  parent c hpos hlt := by
    rw [size_push] at hlt
    by_cases hc : c = a.size
    · subst hc
      refine ⟨parent, (mem_children_push h).2 (.inr ⟨rfl, rfl⟩), fun j hj => ?_⟩
      rcases (mem_children_push h).1 hj with hj | ⟨hj, -⟩
      · exact absurd (ha.child_lt hj) (Nat.lt_irrefl _)
      · exact hj
    · obtain ⟨i, hi, huniq⟩ := ha.parent c hpos (by omega)
      refine ⟨i, (mem_children_push h).2 (.inl hi), fun j hj => ?_⟩
      rcases (mem_children_push h).1 hj with hj | ⟨-, hj⟩
      · exact huniq j hj
      · exact absurd hj hc

end Push

theorem isTree_new (x : α) : (Arena.new x).IsTree := by
  rw [isTree_iff]
  simp [Arena.new, size, children]

/-! ## Adding branches -/

mutual

theorem size_lt_graft (parent : Nat) :
    (b : Branch α) → (a : Arena α) → a.size < (a.graft parent b).size
  | .mk kind position payload below, a => by
    rw [graft]
    have := size_le_graftAll a.size below (a.push parent kind position payload)
    rw [size_push] at this
    omega

theorem size_le_graftAll (parent : Nat) :
    (bs : List (Branch α)) → (a : Arena α) → a.size ≤ (a.graftAll parent bs).size
  | [], a => by unfold graftAll; exact Nat.le_refl _
  | b :: rest, a => by
    rw [graftAll]
    have := size_lt_graft parent b a
    have := size_le_graftAll parent rest (a.graft parent b)
    omega

end

mutual

theorem IsTree.graft {parent : Nat} : (b : Branch α) → {a : Arena α} → a.IsTree → parent < a.size →
    (a.graft parent b).IsTree
  | .mk kind position payload below, a, ha, h => by
    rw [Arena.graft]
    exact IsTree.graftAll below (ha.push h) (by rw [size_push]; omega)

theorem IsTree.graftAll {parent : Nat} : (bs : List (Branch α)) → {a : Arena α} → a.IsTree →
    parent < a.size → (a.graftAll parent bs).IsTree
  | [], a, ha, _ => by rw [Arena.graftAll]; exact ha
  | b :: rest, a, ha, h => by
    rw [Arena.graftAll]
    have := size_lt_graft parent b a
    exact IsTree.graftAll rest (IsTree.graft b ha h) (by omega)

end

end Calligraph.Arena
