import Calligraph.Export.Format
import Calligraph.Failure
import Calligraph.Files.System
import Calligraph.Toml.Document

/-!
# Configurations

What to analyse and how. A configuration is read from a file or given on the command line, and every
part of it may be missing.
-/

namespace Calligraph

structure Config where
  name : Option String := none
  /-- Source files, in the order they are analysed. -/
  inputs : List Bytes := []
  /-- Folders whose source files are analysed. -/
  folders : List Bytes := []
  /-- The manifest of a workspace. -/
  workspace : Option Bytes := none
  /-- Files that describe routines outside of the project. -/
  references : List Bytes := []
  format : Option OutputFormat := none
  parallel : Option Bool := none
  jobs : Option Nat := none
deriving Repr, DecidableEq, Inhabited

namespace Config

/-- The file that is looked for where none is named. -/
def defaultFile : Bytes := "semgraph.toml"

def ofEntries? (es : Toml.Entries) : Option Config := do
  unless es.onlyHas
      ["name", "inputs", "folders", "workspace", "references", "format", "parallel", "jobs"] do
    failure
  let name ← es.optional? "name" Toml.Item.text?
  let inputs ← es.optional? "inputs" Toml.Item.texts?
  let folders ← es.optional? "folders" Toml.Item.texts?
  let workspace ← es.optional? "workspace" Toml.Item.text?
  let references ← es.optional? "references" Toml.Item.texts?
  let format ← es.optional? "format" fun item => item.word?.bind OutputFormat.ofName?
  let parallel ← es.optional? "parallel" Toml.Item.bool?
  let jobs ← es.optional? "jobs" Toml.Item.nat?
  let paths (texts : Option (List String)) : List Bytes := (texts.getD []).map Bytes.ofText
  return {
    name, inputs := paths inputs, folders := paths folders,
    workspace := workspace.map Bytes.ofText, references := paths references, format, parallel,
    jobs }

/-- The configuration with its paths seen from `base`. -/
def relativeTo (c : Config) (base : Bytes) : Config :=
  { c with
    inputs := c.inputs.map (Files.join base)
    folders := c.folders.map (Files.join base)
    workspace := c.workspace.map (Files.join base)
    references := c.references.map (Files.join base) }

/-- The configuration in a file, its paths seen from the directory of the file. -/
def ofFile (fs : FileSystem) (path : Bytes) : Except RunError Config :=
  match fs.read path with
  | .error cause => .error (.configUnreadable path.display cause)
  | .ok text =>
    match (Toml.parse? text).bind ofEntries? with
    | none => .error (.configInvalid path.display)
    | some c => .ok (c.relativeTo ((Files.parent? path).getD Files.here))

/-- Two configurations as one: lists are put together, and of all else the second counts where it
has a value. -/
def merge (c second : Config) : Config :=
  { name := second.name <|> c.name
    inputs := c.inputs ++ second.inputs
    folders := c.folders ++ second.folders
    workspace := second.workspace <|> c.workspace
    references := c.references ++ second.references
    format := second.format <|> c.format
    parallel := second.parallel <|> c.parallel
    jobs := second.jobs <|> c.jobs }

def hasSources (c : Config) : Bool :=
  !c.inputs.isEmpty || !c.folders.isEmpty || c.workspace.isSome

def projectName (c : Config) : String :=
  c.name.getD "project"

end Config

/-- How many workers to use: as many as asked for, or half the cores, and at least one. -/
def workerCount (requested : Option Nat) (cores : Nat) : Nat :=
  max (requested.getD (cores / 2)) 1

end Calligraph
