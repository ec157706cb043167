import Calligraph.Arena
import Calligraph.Scope
import Calligraph.Target

/-!
# Sketches

The sketch of a unit keeps what calls and what can be called: a tree of routines, modules and calls,
and the declarations that paths of other units may mean.
-/

namespace Calligraph

/-- What a node of a sketch stands for. -/
inductive Mark where
  | root
  | module
  /-- The body of the routine with this index. -/
  | declaration (routine : Nat)
  | call (target : CallTarget)
deriving Repr, DecidableEq, Inhabited

def Mark.kind : Mark → NodeKind
  | .root => .other
  | .module => .other
  | .declaration _ => .declaration
  | .call _ => .call

structure RoutineDecl where
  path : List String
  params : List String
  returns : TypeHint
  scope : Nat
deriving Repr, DecidableEq, Inhabited

structure ImplDecl where
  selfType : List String
  trait : Option (List String)
  scope : Nat
deriving Repr, DecidableEq, Inhabited

/-- What a unit declares, in the order of its text. Scopes are named by their index, and scope `0`
is that of the unit. -/
structure Declarations where
  scopes : Array Scope := #[]
  routines : Array RoutineDecl := #[]
  types : Array (List String) := #[]
  impls : Array ImplDecl := #[]
deriving Repr, Inhabited

structure Sketch extends Declarations where
  arena : Arena Mark
deriving Repr

namespace Sketch

def routineAt (s : Sketch) (node : Nat) : Option RoutineDecl :=
  match s.arena.payload? node with
  | some (.declaration i) => s.routines[i]?
  | _ => none

def callAt (s : Sketch) (node : Nat) : Option CallTarget :=
  match s.arena.payload? node with
  | some (.call target) => some target
  | _ => none

end Sketch

end Calligraph
