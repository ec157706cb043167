import Calligraph.Collect
import Calligraph.CommandLine.Arguments
import Calligraph.Sketch.FrontEnd

/-!
# Runs of the command line

A run is a function of the machine, the file system and the arguments. Its report goes out in one
piece at the very end, to the standard output or to a file.
-/

namespace Calligraph

/-- What a run finds beside the file system. -/
structure Host where
  cores : Nat := 1
  /-- Why so many workers cannot be started. -/
  workers : Nat → Option String := fun _ => none
  /-- How many bytes the standard output takes, if there is a bound. -/
  room : Option Nat := none
  /-- The error output takes nothing. -/
  isMute : Bool := false

structure Outcome where
  code : Nat
  stdout : Bytes := []
  message : String := ""
  files : FileSystem

namespace Config

def report (c : Config) (host : Host) (fs : FileSystem) : Except RunError Report := do
  if let some cause := host.workers (workerCount c.jobs host.cores) then
    throw (.workersNotStarted cause)
  let sources ← c.collect fs
  match Project.load Sketch.frontEnd c.projectName sources (c.loadReferences fs) with
  | .ok project => return project.analyze
  | .error e => throw (.analysis e)

def outputFormat (c : Config) : OutputFormat :=
  c.format.getD .dot

end Config

def Report.summaryLine (r : Report) : String :=
  toString r.graph.size ++ " edges, " ++ toString r.summary.unresolvedCallers ++
    " unresolved callers, " ++ toString r.summary.unresolvedCallees ++ " unresolved callees"

namespace Outcome

def failed (e : RunError) (files : FileSystem) (stdout : Bytes := []) : Outcome :=
  { code := 1, stdout, message := "Error: " ++ e.report, files }

/-- Shows a text on the standard output. A run that cannot show all of it breaks down. -/
def shown (host : Host) (fs : FileSystem) (text : Bytes) (message : String) : Outcome :=
  let stdout := text.upTo host.room
  if stdout.length < text.length then
    { code := 101, stdout, message := "failed printing to stdout: " ++ FileError.brokenPipe.message,
      files := fs }
  else { code := 0, stdout, message, files := fs }

/-- Writes a text to a file, which may be the standard output under another name. -/
def written (host : Host) (fs : FileSystem) (path : String) (text : Bytes) (message : String) :
    Outcome :=
  let w := fs.write path text
  let stdout := w.shown.upTo host.room
  match w.failure with
  | some cause => failed (.outputUnwritable path cause) w.files stdout
  | none =>
    if stdout.length < w.shown.length then
      failed (.outputUnwritable path .brokenPipe) w.files stdout
    else { code := 0, stdout, message, files := w.files }

/-- Ends a run with its line for the error output. A run that cannot show it breaks down. -/
def told (o : Outcome) (host : Host) : Outcome :=
  if host.isMute then { o with code := 101, message := "" } else o

end Outcome

namespace Arguments

def configuration (a : Arguments) (fs : FileSystem) : Except RunError Config := do
  let base ← match a.config with
    | some path => Config.ofFile fs path
    | none =>
      if fs.isFile Config.defaultFile then Config.ofFile fs Config.defaultFile else pure {}
  return base.merge a.overrides

def prepare (a : Arguments) (host : Host) (fs : FileSystem) :
    Except RunError (Config × Report) := do
  let config ← a.configuration fs
  unless config.hasSources do throw .noSources
  return (config, ← config.report host fs)

/-- The end of a run: its text goes to where the arguments say. -/
def deliver (a : Arguments) (host : Host) (fs : FileSystem) (text : Bytes) (message : String) :
    Outcome :=
  match a.output with
  | some path => .written host fs path text message
  | none => .shown host fs text message

end Arguments

namespace CommandLine

def run (host : Host) (fs : FileSystem) (args : List Bytes) : Except Usage Outcome := do
  let a ← Arguments.parse args
  let outcome := match a.prepare host fs with
    | .ok (config, report) =>
      a.deliver host fs (report.render config.outputFormat) report.summaryLine
    | .error e => .failed e fs
  return outcome.told host

end CommandLine

end Calligraph
