import Calligraph.FrontEnd
import Calligraph.Text.Blank
import Calligraph.Toml.Document

/-!
# Libraries

A reference describes routines outside of the project in a TOML document:

    name = "console"

    [[routine]]
    path = "Console::open"
    params = ["&str"]
    returns = "Console"
-/

namespace Calligraph

/-- A routine outside of the project. -/
structure LibraryRoutine where
  path : List String
  params : List String
  /-- The path of the type that it returns, if there is one to call methods on. -/
  returns : Option (List String)
deriving Repr, DecidableEq, Inhabited

structure Library where
  name : String
  routines : List LibraryRoutine
deriving Repr, DecidableEq, Inhabited

namespace Library

def splitColons : List Char → List (List Char)
  | ':' :: ':' :: rest => [] :: splitColons rest
  | c :: rest =>
    match splitColons rest with
    | part :: parts => (c :: part) :: parts
    | [] => [[c]]
  | [] => [[]]

/-- The segments of a path, none of which is blank. -/
def splitPath (text : List Char) : Except Fault (List String) :=
  let segments := (splitColons text).map Text.trim
  if segments.any (·.isEmpty) then .error (.routinePath (String.ofList text))
  else .ok (segments.map String.ofList)

/-- A routine as the document describes it. -/
structure Description where
  path : String
  params : List String
  returns : Option String

def Description.ofEntries? (es : Toml.Entries) : Option Description := do
  unless es.onlyHas ["path", "params", "returns"] do failure
  let path ← (← es.lookup "path").text?
  let params ← es.optional? "params" Toml.Item.texts?
  let returns ← es.optional? "returns" Toml.Item.text?
  return { path, params := params.getD [], returns }

/-- Reads a description: a table, or the list of its three values. -/
def Description.ofItem? : Toml.Item → Option Description
  | .table _ es => ofEntries? es
  | .array (path :: params :: returns :: _) => do
    return { path := ← path.text?, params := ← params.texts?, returns := some (← returns.text?) }
  | _ => none

/-- The routine of a description. A return type that is blank or `()` is none. -/
def Description.routine (d : Description) : Except Fault LibraryRoutine := do
  let returns ← match (d.returns.map fun s => Text.trim s.toList).getD [] with
    | [] | ['(', ')'] => pure none
    | text => some <$> splitPath text
  return { path := ← splitPath d.path.toList, params := d.params, returns }

def describe? (text : String) : Option (Option String × List Description) := do
  let es ← Toml.parse? text
  unless es.onlyHas ["name", "routine"] do failure
  let name ← es.optional? "name" Toml.Item.text?
  let routines ← es.optional? "routine" Toml.Item.list?
  return (name, ← (routines.getD []).mapM Description.ofItem?)

/-- The library of a document, called `fallback` if the document does not name it. -/
def parse (fallback text : String) : Except Fault Library :=
  match describe? text with
  | none => .error .metadata
  | some (name, descriptions) => do
    return { name := name.getD fallback, routines := ← descriptions.mapM Description.routine }

def load (reference : Reference) : Except Fault Library :=
  match reference.text with
  | .inline text => parse reference.name text
  | .file _ (.ok text) => parse reference.name text
  | .file path (.error cause) => .error (.unreadable path cause)

end Library

end Calligraph
