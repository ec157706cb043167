import Calligraph.Text.Position

/-!
# Diagnostics

What could not be found out about a call. A diagnostic never stops a run.
-/

namespace Calligraph

inductive DiagnosticKind where
  /-- The call is outside of any routine. -/
  | unresolvedCaller
  /-- The target of the call is not known. -/
  | unresolvedCallee
deriving Repr, DecidableEq, Inhabited

/-- What could not be found out about the call at a place in a unit. -/
structure Diagnostic where
  kind : DiagnosticKind
  unit : String
  position : Position
deriving Repr, DecidableEq, Inhabited

def Position.text (p : Position) : String :=
  toString p.line ++ ":" ++ toString p.column

namespace Diagnostic

def message (d : Diagnostic) : String :=
  let what := match d.kind with
    | .unresolvedCaller => "call outside any declaration, attributed to <module-level>"
    | .unresolvedCallee => "call target could not be statically resolved"
  d.unit ++ ":" ++ d.position.text ++ ": " ++ what

def count (kind : DiagnosticKind) (ds : List Diagnostic) : Nat :=
  ds.countP fun d => d.kind == kind

end Diagnostic

/-- How many diagnostics of each kind there are. -/
structure DiagnosticSummary where
  unresolvedCallers : Nat := 0
  unresolvedCallees : Nat := 0
deriving Repr, DecidableEq, Inhabited

namespace DiagnosticSummary

def ofList (ds : List Diagnostic) : DiagnosticSummary :=
  { unresolvedCallers := Diagnostic.count .unresolvedCaller ds
    unresolvedCallees := Diagnostic.count .unresolvedCallee ds }

def total (s : DiagnosticSummary) : Nat :=
  s.unresolvedCallers + s.unresolvedCallees

end DiagnosticSummary

end Calligraph
