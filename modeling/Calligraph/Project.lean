import Calligraph.FrontEnd
import Calligraph.Symbol

/-!
# Projects

A project is a list of units and references that were all taken in.
-/

namespace Calligraph

structure ParsedUnit (Tree : Type) where
  id : String
  tree : Tree

/-- A project of the language of `fe`. -/
structure Project (fe : FrontEnd) where
  name : String
  units : List (ParsedUnit fe.Tree)
  libraries : List fe.Library
  bindings : fe.Bindings

namespace Project

variable {fe : FrontEnd}

def parseUnit (fe : FrontEnd) (source : Source) : Except AnalysisError (ParsedUnit fe.Tree) :=
  match fe.parse source with
  | .ok tree => .ok ⟨source.id, tree⟩
  | .error fault => .error (.parse source.id fault)

def loadReference (fe : FrontEnd) (reference : Reference) : Except AnalysisError fe.Library :=
  match fe.load reference with
  | .ok library => .ok library
  | .error fault => .error (.missingReference reference.name fault)

/-- The project of units and libraries that are taken in. -/
def ofUnits (fe : FrontEnd) (name : String) (units : List (ParsedUnit fe.Tree))
    (libraries : List fe.Library) : Project fe :=
  { name, units, libraries, bindings := fe.bind (units.map ParsedUnit.tree) libraries }

/-- Takes in all units and then all references. The first failure counts. -/
def load (fe : FrontEnd) (name : String) (sources : List Source) (references : List Reference) :
    Except AnalysisError (Project fe) := do
  let units ← sources.mapM (parseUnit fe)
  let libraries ← references.mapM (loadReference fe)
  return .ofUnits fe name units libraries

def declaringSymbol (p : Project fe) (tree : fe.Tree) (node : Nat) : Option Symbol :=
  (fe.declared p.bindings tree node).bind fun r => Symbol.ofText? (fe.display r)

def referencedSymbol (p : Project fe) (tree : fe.Tree) (node : Nat) : Option Symbol :=
  (fe.referenced p.bindings tree node).bind fun r => Symbol.ofText? (fe.display r)

/-- A node with the form of a call calls something. -/
def isCall (p : Project fe) (tree : fe.Tree) (node : Nat) : Bool :=
  fe.isCall p.bindings tree node

end Project

end Calligraph
