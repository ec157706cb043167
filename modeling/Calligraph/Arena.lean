import Calligraph.Text.Position

/-!
# Node arenas

The tree of a unit as an array of nodes. A node is named by its index, the root is node `0`, and a
node lists its children in the order they were added.
-/

namespace Calligraph

/-- What a node is to the walk. -/
inductive NodeKind where
  /-- A routine, the caller of the calls below it. -/
  | declaration
  | call
  | other
deriving Repr, DecidableEq, Inhabited

/-- A node, its payload of whatever type the language of the unit needs. -/
structure Node (α : Type) where
  kind : NodeKind
  position : Position
  children : Array Nat
  payload : α
deriving Repr

structure Arena (α : Type) where
  nodes : Array (Node α)
deriving Repr

namespace Arena

variable {α : Type}

/-- The place of the root and of nodes that do not exist. -/
def nowhere : Position := ⟨0, 0⟩

def new (payload : α) : Arena α :=
  ⟨#[⟨.other, nowhere, #[], payload⟩]⟩

def size (a : Arena α) : Nat :=
  a.nodes.size

/-- Adds a node under `parent` and gives it the next index. A parent beyond that index lists no
child, and the new node itself is there when its parent is looked up. -/
def push (a : Arena α) (parent : Nat) (kind : NodeKind) (position : Position) (payload : α) :
    Arena α :=
  let id := a.nodes.size
  ⟨(a.nodes.push ⟨kind, position, #[], payload⟩).modify parent fun n =>
    { n with children := n.children.push id }⟩

def kind (a : Arena α) (i : Nat) : NodeKind :=
  (a.nodes[i]?.map Node.kind).getD .other

def children (a : Arena α) (i : Nat) : List Nat :=
  ((a.nodes[i]?.map Node.children).getD #[]).toList

def position (a : Arena α) (i : Nat) : Position :=
  (a.nodes[i]?.map Node.position).getD nowhere

def payload? (a : Arena α) (i : Nat) : Option α :=
  a.nodes[i]?.map Node.payload

def count (a : Arena α) (k : NodeKind) : Nat :=
  a.nodes.toList.countP fun n => n.kind == k

end Arena

/-- A tree outside of any arena. -/
inductive Branch (α : Type) where
  | mk (kind : NodeKind) (position : Position) (payload : α) (below : List (Branch α))

namespace Arena

variable {α : Type}

mutual

/-- Adds a tree under `parent`, every node before what is below it. -/
def graft (a : Arena α) (parent : Nat) : Branch α → Arena α
  | .mk kind position payload below =>
    (a.push parent kind position payload).graftAll a.size below

def graftAll (a : Arena α) (parent : Nat) : List (Branch α) → Arena α
  | [] => a
  | b :: rest => (a.graft parent b).graftAll parent rest

end

end Arena

end Calligraph
