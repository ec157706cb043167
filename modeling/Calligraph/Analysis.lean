import Calligraph.Walk

/-!
# Analysis

The call graph of a project and what could not be found out. The walks of the units may hand their
calls to the builder in any mixture; the report is the same.
-/

namespace Calligraph

/-- The result of a run. -/
structure Report where
  graph : CallGraph := {}
  diagnostics : List Diagnostic := []
deriving Repr, DecidableEq, Inhabited

/-- The report of walks whose calls reach the builder in the order of `events`. -/
def Report.ofEvents (walks : List WalkOutput) (events : List CallSite) : Report :=
  { graph := (events.foldl GraphBuilder.accept {}).finish
    diagnostics := walks.flatMap fun w => w.diagnostics.toList }

def Report.summary (r : Report) : DiagnosticSummary :=
  .ofList r.diagnostics

namespace Project

variable {fe : FrontEnd}

def analyze (p : Project fe) : Report :=
  let walks := p.walks
  .ofEvents walks (walks.flatMap fun w => w.sites.toList)

end Project

end Calligraph
