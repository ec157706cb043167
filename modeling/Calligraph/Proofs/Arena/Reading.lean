import Calligraph.Proofs.Arena.Graft

/-!
# Reading an arena

A tree that is added to an arena can be read back from it. The nodes of the tree stand behind those
of the arena in pre-order (`toList_nodes_graftAll`). So an arena that has grown from its root is
read as the root with the added trees below it, and its pre-order traversal meets the nodes by their
indices (`IsTree.read_grown`).
-/

namespace Calligraph

variable {α β : Type}

/-! ## Trees as lists of nodes -/

/-- The node with more children behind those it has. -/
def Node.adopt (more : List Nat) (n : Node α) : Node α :=
  { n with children := n.children ++ more }

/-- The node apart from its children. -/
def Node.entry (n : Node α) : NodeKind × Position × α :=
  (n.kind, n.position, n.payload)

namespace Branch

mutual

/-- The number of nodes. -/
def size : Branch α → Nat
  | .mk _ _ _ below => sizeAll below + 1

def sizeAll : List (Branch α) → Nat
  | [] => 0
  | b :: rest => b.size + sizeAll rest

end

/-- The indices of the top nodes of trees that are numbered in pre-order from `i` on. -/
def starts (i : Nat) : List (Branch α) → List Nat
  | [] => []
  | b :: rest => i :: starts (i + b.size) rest

mutual

/-- The nodes in pre-order, numbered from `i` on. -/
def nodes (i : Nat) : Branch α → List (Node α)
  | .mk kind position payload below =>
    ⟨kind, position, (starts (i + 1) below).toArray, payload⟩ :: nodesAll (i + 1) below

def nodesAll (i : Nat) : List (Branch α) → List (Node α)
  | [] => []
  | b :: rest => b.nodes i ++ nodesAll (i + b.size) rest

end

mutual

/-- The nodes in pre-order apart from their children. -/
def entries : Branch α → List (NodeKind × Position × α)
  | .mk kind position payload below => (kind, position, payload) :: entriesAll below

def entriesAll : List (Branch α) → List (NodeKind × Position × α)
  | [] => []
  | b :: rest => b.entries ++ entriesAll rest

end

mutual

/-- The tree with other payloads. -/
def map (f : α → β) : Branch α → Branch β
  | .mk kind position payload below => .mk kind position (f payload) (mapAll f below)

def mapAll (f : α → β) : List (Branch α) → List (Branch β)
  | [] => []
  | b :: rest => b.map f :: mapAll f rest

end

@[simp] theorem mapAll_append (f : α → β) (bs cs : List (Branch α)) :
    mapAll f (bs ++ cs) = mapAll f bs ++ mapAll f cs := by
  induction bs with
  | nil => rfl
  | cons b rest ih => rw [List.cons_append, mapAll, mapAll, ih, List.cons_append]

@[simp] theorem entriesAll_append (bs cs : List (Branch α)) :
    entriesAll (bs ++ cs) = entriesAll bs ++ entriesAll cs := by
  induction bs with
  | nil => rfl
  | cons b rest ih => rw [List.cons_append, entriesAll, entriesAll, ih, List.append_assoc]

theorem entriesAll_single (kind : NodeKind) (position : Position) (payload : α)
    (below : List (Branch α)) :
    entriesAll [.mk kind position payload below] =
      (kind, position, payload) :: entriesAll below := by
  rw [entriesAll, entries, entriesAll, List.append_nil]

mutual

theorem map_entry_nodes : (b : Branch α) → (i : Nat) → (b.nodes i).map Node.entry = b.entries
  | .mk kind position payload below, i => by
    rw [nodes, entries, List.map_cons, map_entry_nodesAll below]
    rfl

theorem map_entry_nodesAll : (bs : List (Branch α)) → (i : Nat) →
    (nodesAll i bs).map Node.entry = entriesAll bs
  | [], i => rfl
  | b :: rest, i => by
    rw [nodesAll, entriesAll, List.map_append, map_entry_nodes b, map_entry_nodesAll rest]

end

mutual

theorem length_nodes : (b : Branch α) → (i : Nat) → (b.nodes i).length = b.size
  | .mk kind position payload below, i => by
    rw [nodes, size, List.length_cons, length_nodesAll below]

theorem length_nodesAll : (bs : List (Branch α)) → (i : Nat) →
    (nodesAll i bs).length = sizeAll bs
  | [], i => rfl
  | b :: rest, i => by
    rw [nodesAll, sizeAll, List.length_append, length_nodes b, length_nodesAll rest]

end

end Branch

/-! ## Arenas that have grown -/

namespace Arena

theorem modify_append_left {l : List α} {i : Nat} (h : i < l.length) (f : α → α) (r : List α) :
    (l ++ r).modify i f = l.modify i f ++ r := by
  refine List.ext_getElem? fun j => ?_
  grind

theorem modify_append_right (l : List α) (f : α → α) (x : α) (r : List α) :
    (l ++ x :: r).modify l.length f = l ++ f x :: r := by
  refine List.ext_getElem? fun j => ?_
  grind

variable {a : Arena α}

theorem toList_nodes_push {parent : Nat} (h : parent < a.size) (k : NodeKind) (pos : Position)
    (x : α) :
    (a.push parent k pos x).nodes.toList =
      a.nodes.toList.modify parent (Node.adopt [a.size]) ++ [⟨k, pos, #[], x⟩] := by
  have hadopt : (fun n : Node α => { n with children := n.children.push a.size }) =
      Node.adopt [a.size] := by
    funext n
    simp [Node.adopt]
  rw [← modify_append_left (show parent < a.nodes.toList.length from h), ← hadopt]
  simp [push, size]

mutual

theorem toList_nodes_graft (parent : Nat) : (b : Branch α) → (a : Arena α) → parent < a.size →
    (a.graft parent b).nodes.toList =
      a.nodes.toList.modify parent (Node.adopt [a.size]) ++ b.nodes a.size
  | .mk kind position payload below, a, h => by
    have hbelow := toList_nodes_graftAll a.size below (a.push parent kind position payload)
      (by rw [size_push]; omega)
    have hlength : (a.nodes.toList.modify parent (Node.adopt [a.size])).length = a.size := by
      rw [List.length_modify]
      rfl
    -- The new node is the last one, and what is below it is added to its children.
    have hlast := modify_append_right (a.nodes.toList.modify parent (Node.adopt [a.size]))
      (Node.adopt (Branch.starts (a.size + 1) below)) ⟨kind, position, #[], payload⟩ []
    rw [hlength] at hlast
    rw [graft, hbelow, toList_nodes_push h, size_push, hlast, List.append_assoc]
    simp [Branch.nodes, Node.adopt]

theorem toList_nodes_graftAll (parent : Nat) : (bs : List (Branch α)) → (a : Arena α) →
    parent < a.size →
    (a.graftAll parent bs).nodes.toList =
      a.nodes.toList.modify parent (Node.adopt (Branch.starts a.size bs)) ++
        Branch.nodesAll a.size bs
  | [], a, h => by
    have hadopt : (Node.adopt [] : Node α → Node α) = id := by
      funext n
      simp [Node.adopt]
    simp [graftAll, Branch.starts, Branch.nodesAll, hadopt]
  | b :: rest, a, h => by
    have hfirst := toList_nodes_graft parent b a h
    have hsize : (a.graft parent b).size = a.size + b.size := by
      have hlength := congrArg List.length hfirst
      rw [List.length_append, List.length_modify, Branch.length_nodes] at hlength
      exact hlength
    have hrest := toList_nodes_graftAll parent rest (a.graft parent b) (by omega)
    have hadopt : Node.adopt (Branch.starts (a.size + b.size) rest) ∘ Node.adopt [a.size] =
        (Node.adopt (Branch.starts a.size (b :: rest)) : Node α → Node α) := by
      funext n
      simp [Node.adopt, Branch.starts]
    rw [graftAll, hrest, hfirst, hsize, modify_append_left (by rw [List.length_modify]; exact h),
      List.modify_modify_eq, hadopt, Branch.nodesAll, List.append_assoc]

end

/-- The nodes of an arena that has grown from its root are those of one tree in pre-order. -/
theorem toList_nodes_grown (x : α) (bs : List (Branch α)) :
    ((Arena.new x).graftAll 0 bs).nodes.toList = (Branch.mk .other nowhere x bs).nodes 0 := by
  rw [toList_nodes_graftAll 0 bs (Arena.new x) Nat.one_pos]
  simp [Arena.new, size, Branch.nodes, Node.adopt]

theorem map_entry_grown (x : α) (bs : List (Branch α)) :
    ((Arena.new x).graftAll 0 bs).nodes.toList.map Node.entry =
      (.other, nowhere, x) :: Branch.entriesAll bs := by
  rw [toList_nodes_grown, Branch.map_entry_nodes, Branch.entries]

/-! ## Reading -/

/-- The node at an index of the arena. -/
def nodeAt (a : Arena α) (i : Nat) (hi : i < a.size) : Node α :=
  have : i < a.nodes.size := hi
  a.nodes[i]

theorem nodeAt_eq {i : Nat} {n : Node α} (hn : a.nodes[i]? = some n) (hi : i < a.size) :
    a.nodeAt i hi = n :=
  (Array.getElem?_eq_some_iff.1 hn).2

/-- The nodes stand in the arena from the index `i` on. -/
def HoldsFrom (a : Arena α) (i : Nat) (ns : List (Node α)) : Prop :=
  ns <+: a.nodes.toList.drop i

namespace HoldsFrom

theorem head {n : Node α} {ns : List (Node α)} {i : Nat} (h : a.HoldsFrom i (n :: ns)) :
    a.nodes[i]? = some n := by
  obtain ⟨after, hafter⟩ := h
  have hhead := congrArg List.head? hafter
  rw [List.head?_drop] at hhead
  simpa using hhead.symm

/-- Nodes that stand one after the other stand there in two parts. -/
theorem append {ns ms : List (Node α)} {i : Nat} (h : a.HoldsFrom i (ns ++ ms)) :
    a.HoldsFrom i ns ∧ a.HoldsFrom (i + ns.length) ms := by
  obtain ⟨after, hafter⟩ := h
  rw [List.append_assoc] at hafter
  refine ⟨⟨_, hafter⟩, after, ?_⟩
  rw [← List.drop_drop, ← hafter, List.drop_left]

theorem tail {n : Node α} {ns : List (Node α)} {i : Nat} (h : a.HoldsFrom i (n :: ns)) :
    a.HoldsFrom (i + 1) ns :=
  (append (show a.HoldsFrom i ([n] ++ ns) from h)).2

theorem lt_size {b : Branch α} {i : Nat} (h : a.HoldsFrom i (b.nodes i)) : i < a.size := by
  obtain ⟨kind, position, payload, below⟩ := b
  rw [Branch.nodes] at h
  exact (Array.getElem?_eq_some_iff.1 h.head).1

end HoldsFrom

namespace IsTree

/-- The tree at a node, read through the children of the nodes. -/
def read (h : a.IsTree) (i : Nat) (hi : i < a.size) : Branch α :=
  .mk (a.nodeAt i hi).kind (a.nodeAt i hi).position (a.nodeAt i hi).payload
    ((a.children i).attach.map fun c => h.read c.1 (h.child_lt c.2))
termination_by a.size - i
decreasing_by
  have := h.lt_child c.2
  have := h.child_lt c.2
  omega

theorem read_eq (h : a.IsTree) (i : Nat) (hi : i < a.size) :
    h.read i hi = .mk (a.nodeAt i hi).kind (a.nodeAt i hi).position (a.nodeAt i hi).payload
      (List.pmap h.read (a.children i) fun _ hc => h.child_lt hc) := by
  rw [read, List.pmap_eq_map_attach]

mutual

/-- A tree that stands in the arena from `i` on is read at `i`, and its nodes are met by their
indices. -/
theorem read_of_holdsFrom (h : a.IsTree) : (b : Branch α) → {i : Nat} → (hi : i < a.size) →
    a.HoldsFrom i (b.nodes i) → h.read i hi = b ∧ h.nodesFrom i = List.range' i b.size
  | .mk kind position payload below, i, hi, hb => by
    rw [Branch.nodes] at hb
    have hnode := hb.head
    have hchildren : a.children i = Branch.starts (i + 1) below := by simp [children, hnode]
    obtain ⟨hread, hmet⟩ := readAll_of_holdsFrom h below hb.tail
    constructor
    · rw [read_eq, nodeAt_eq hnode]
      congr 1
      rw [← hread fun c hc => h.child_lt (hchildren ▸ hc)]
      simp only [hchildren]
    · rw [nodesFrom_eq, hchildren, hmet, Branch.size, List.range'_succ]

theorem readAll_of_holdsFrom (h : a.IsTree) : (bs : List (Branch α)) → {i : Nat} →
    a.HoldsFrom i (Branch.nodesAll i bs) →
    (∀ hlt, List.pmap h.read (Branch.starts i bs) hlt = bs) ∧
      (Branch.starts i bs).flatMap h.nodesFrom = List.range' i (Branch.sizeAll bs)
  | [], i, _ => ⟨fun _ => rfl, rfl⟩
  | b :: rest, i, hbs => by
    obtain ⟨hb, hrest⟩ := hbs.append
    rw [Branch.length_nodes] at hrest
    have hfirst := read_of_holdsFrom h b hb.lt_size hb
    obtain ⟨hread, hmet⟩ := readAll_of_holdsFrom h rest hrest
    constructor
    · intro hlt
      simp only [Branch.starts, List.pmap_cons]
      rw [hfirst.1, hread]
    · rw [Branch.starts, List.flatMap_cons, hfirst.2, hmet, Branch.sizeAll, List.range'_append_1]

end

/-- An arena that has grown from its root is read as the root with what was added below it. -/
theorem read_grown {x : α} {bs : List (Branch α)}
    (h : ((Arena.new x).graftAll 0 bs).IsTree) :
    h.read 0 h.root_lt = .mk .other nowhere x bs ∧
      h.nodesFrom 0 = List.range ((Arena.new x).graftAll 0 bs).size := by
  have hnodes := toList_nodes_grown x bs
  have hsize : ((Arena.new x).graftAll 0 bs).size = (Branch.mk .other nowhere x bs).size := by
    rw [← Branch.length_nodes _ 0, ← hnodes]
    rfl
  have hholds : ((Arena.new x).graftAll 0 bs).HoldsFrom 0
      ((Branch.mk .other nowhere x bs).nodes 0) := by
    rw [← hnodes]
    exact List.prefix_rfl
  obtain ⟨hread, hmet⟩ := h.read_of_holdsFrom _ h.root_lt hholds
  exact ⟨hread, by rw [hmet, hsize, List.range_eq_range']⟩

end IsTree

end Arena

end Calligraph
