import Calligraph.Diagnostic
import Calligraph.Files.Error

/-!
# Failures

Why a run stops. A failure is shown as the texts of its causes, the outermost first.
-/

namespace Calligraph

/-- Why a unit or a reference cannot be taken in. -/
inductive Fault where
  | malformed (position : Position) (reason : String)
  | unreadable (path : String) (cause : FileError)
  /-- Files are not read at all. -/
  | unopened (path : String)
  | metadata
  | routinePath (text : String)
deriving Repr, DecidableEq, Inhabited

/-- The texts of the causes, the outermost first. -/
def Fault.causes : Fault → List String
  | .malformed position reason => [position.text ++ ": " ++ reason]
  | .unreadable path cause => ["Failed to read reference " ++ path, cause.message]
  | .unopened path => ["cannot open " ++ path]
  | .metadata => ["Invalid reference metadata"]
  | .routinePath text => ["Invalid routine path `" ++ text ++ "`"]

def Fault.message (f : Fault) : String :=
  f.causes.headD ""

/-- Why a project cannot be loaded. -/
inductive AnalysisError where
  | parse (unit : String) (fault : Fault)
  | missingReference (reference : String) (fault : Fault)
deriving Repr, DecidableEq, Inhabited

namespace AnalysisError

/-- The unit or the reference at fault. -/
def subject : AnalysisError → String
  | .parse unit _ => unit
  | .missingReference reference _ => reference

def fault : AnalysisError → Fault
  | .parse _ fault => fault
  | .missingReference _ fault => fault

def message : AnalysisError → String
  | .parse unit fault => "failed to parse " ++ unit ++ ": " ++ fault.message
  | .missingReference reference fault =>
    "missing external reference " ++ reference ++ ": " ++ fault.message

def causes (e : AnalysisError) : List String :=
  e.message :: e.fault.causes

end AnalysisError

/-- Why a run of the command line stops. -/
inductive RunError where
  | configUnreadable (path : String) (cause : FileError)
  | configInvalid (path : String)
  | noSources
  | workersNotStarted (cause : String)
  /-- Workspaces are not looked into. -/
  | workspace
  | directoryUnreadable (path : String) (cause : FileError)
  /-- The list of the entries of a directory breaks off. -/
  | entryUnreadable (cause : FileError)
  | sourceUnreadable (path : String) (cause : FileError)
  | analysis (error : AnalysisError)
  | outputUnwritable (path : String) (cause : FileError)
deriving Repr, DecidableEq, Inhabited

namespace RunError

def causes : RunError → List String
  | .configUnreadable path cause => ["Failed to read config file " ++ path, cause.message]
  | .configInvalid path => ["Invalid TOML in " ++ path]
  | .noSources =>
    ["Please provide at least one --input <file>, --folder <dir> or --workspace <Cargo.toml>"]
  | .workersNotStarted cause => ["Failed to initialize the global thread pool", cause]
  | .workspace => ["Failed to execute cargo metadata"]
  | .directoryUnreadable path cause => ["Failed to read directory " ++ path, cause.message]
  | .entryUnreadable cause => [cause.message]
  | .sourceUnreadable path cause => ["Failed to read file " ++ path, cause.message]
  | .analysis error => error.causes
  | .outputUnwritable path cause => ["Failed to write output to " ++ path, cause.message]

def message (e : RunError) : String :=
  e.causes.headD ""

/-- All causes in one line. -/
def report (e : RunError) : String :=
  ": ".intercalate e.causes

end RunError

end Calligraph
