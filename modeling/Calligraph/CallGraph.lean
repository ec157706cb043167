import Calligraph.Symbol
import Calligraph.Text.Position

/-!
# Call graphs

A call graph is the sequence of its edges, one for each call, in the order of the units and of their
texts. The builder takes the calls of several units in any mixture and puts them in that order.
-/

namespace Calligraph

/-- A call with its two ends. -/
structure CallSite where
  /-- The index of the unit in the project. -/
  unit : Nat
  position : Position
  caller : Symbol
  callee : Symbol
deriving Repr, DecidableEq, Inhabited

structure Edge where
  caller : Symbol
  callee : Symbol
deriving Repr, DecidableEq, Inhabited

def CallSite.edge (site : CallSite) : Edge :=
  ⟨site.caller, site.callee⟩

/-- The edges in order. -/
structure CallGraph where
  edges : List Edge := []
deriving Repr, DecidableEq, Inhabited

namespace CallGraph

def size (g : CallGraph) : Nat :=
  g.edges.length

/-- The callees of a symbol, one for each call. -/
def calleesOf (g : CallGraph) (caller : Symbol) : List Symbol :=
  (g.edges.filter fun e => e.caller == caller).map Edge.callee

def callersOf (g : CallGraph) (callee : Symbol) : List Symbol :=
  (g.edges.filter fun e => e.callee == callee).map Edge.caller

/-- The ends of all edges, each caller before its callee. -/
def ends (g : CallGraph) : List Symbol :=
  g.edges.flatMap fun e => [e.caller, e.callee]

/-- The symbols of the graph in the order of their first occurrence. -/
def symbols (g : CallGraph) : List Symbol :=
  g.ends.eraseDups

end CallGraph

/-- The edges of each unit so far. The order of the units here has no meaning. -/
structure GraphBuilder where
  buffers : List (Nat × Array Edge) := []
deriving Repr, Inhabited

namespace GraphBuilder

/-- Adds an edge to the buffer of a unit, which is made if there is none. -/
def put (unit : Nat) (edge : Edge) : List (Nat × Array Edge) → List (Nat × Array Edge)
  | [] => [(unit, #[edge])]
  | (u, edges) :: rest =>
    if u = unit then (u, edges.push edge) :: rest else (u, edges) :: put unit edge rest

def accept (b : GraphBuilder) (site : CallSite) : GraphBuilder :=
  ⟨put site.unit site.edge b.buffers⟩

/-- The graph of all edges, in the order of the units. -/
def finish (b : GraphBuilder) : CallGraph :=
  ⟨(b.buffers.mergeSort fun x y => x.1 ≤ y.1).flatMap fun (_, edges) => edges.toList⟩

end GraphBuilder

end Calligraph
