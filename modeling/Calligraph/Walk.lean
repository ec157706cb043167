import Calligraph.CallGraph
import Calligraph.Project

/-!
# The walk of a unit

The calls of a unit in the order of its text: a call comes before the calls in its arguments. Its
caller is the innermost routine around it.
-/

namespace Calligraph

/-- The calls of a unit and what could not be found out about them. -/
structure WalkOutput where
  sites : Array CallSite := #[]
  diagnostics : Array Diagnostic := #[]
deriving Repr, DecidableEq, Inhabited

/-- What is left to do: look at a node, or leave the innermost routine. -/
inductive WalkStep where
  | enter (node : Nat)
  | leave
deriving Repr, DecidableEq

/-- Where a walk stands: the work ahead, the routines around it, the innermost first, and what was
found so far. -/
structure WalkState where
  work : List WalkStep
  scopes : List Nat := []
  out : WalkOutput := {}
deriving Repr, DecidableEq

/-- A tree as the walk sees it, its nodes answering for themselves. -/
structure WalkView (α : Type) where
  index : Nat
  unit : String
  arena : Arena α
  declaring : Nat → Option Symbol
  referenced : Nat → Option Symbol
  isCall : Nat → Bool

namespace WalkView

variable {α : Type}

/-- The call at `node` inside the routines `scopes`, the innermost first. -/
def site (v : WalkView α) (scopes : List Nat) (node : Nat) : CallSite :=
  { unit := v.index
    position := v.arena.position node
    caller := (scopes.findSome? v.declaring).getD .moduleLevel
    callee := (v.referenced node).getD .unresolved }

/-- What could not be found out about the call at `node`. -/
def lost (v : WalkView α) (scopes : List Nat) (node : Nat) : List Diagnostic :=
  let report (kind : DiagnosticKind) (found : Option Symbol) : List Diagnostic :=
    if found.isSome then [] else [⟨kind, v.unit, v.arena.position node⟩]
  report .unresolvedCaller (scopes.findSome? v.declaring) ++
    report .unresolvedCallee (v.referenced node)

def visit (v : WalkView α) (scopes : List Nat) (node : Nat) (out : WalkOutput) : WalkOutput :=
  { sites := out.sites.push (v.site scopes node)
    diagnostics := out.diagnostics ++ v.lost scopes node }

/-- Does the next of the work ahead, if there is any. -/
def step (v : WalkView α) : WalkState → Option WalkState
  | { work := [], .. } => none
  | { work := .leave :: work, scopes, out } => some { work, scopes := scopes.tail, out }
  | { work := .enter node :: work, scopes, out } =>
    let below := (v.arena.children node).map WalkStep.enter
    match v.arena.kind node with
    | .declaration => some { work := below ++ .leave :: work, scopes := node :: scopes, out }
    | .call =>
      let out := if v.isCall node then v.visit scopes node out else out
      some { work := below ++ work, scopes, out }
    | .other => some { work := below ++ work, scopes, out }

def run (v : WalkView α) : Nat → WalkState → WalkState
  | 0, s => s
  | fuel + 1, s =>
    match v.step s with
    | some s => v.run fuel s
    | none => s

/-- The steps that the walk of a tree may take: every node is entered once and every routine left
once. -/
def fuel (v : WalkView α) : Nat :=
  2 * v.arena.size + 1

def walk (v : WalkView α) : WalkOutput :=
  (v.run v.fuel { work := [.enter 0] }).out

end WalkView

namespace Project

variable {fe : FrontEnd}

def view (p : Project fe) (index : Nat) (unit : ParsedUnit fe.Tree) : WalkView fe.Payload :=
  { index
    unit := unit.id
    arena := fe.arena unit.tree
    declaring := p.declaringSymbol unit.tree
    referenced := p.referencedSymbol unit.tree
    isCall := p.isCall unit.tree }

def walk (p : Project fe) (index : Nat) (unit : ParsedUnit fe.Tree) : WalkOutput :=
  (p.view index unit).walk

def walks (p : Project fe) : List WalkOutput :=
  p.units.mapIdx p.walk

end Project

end Calligraph
