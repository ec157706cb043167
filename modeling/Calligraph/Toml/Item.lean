/-!
# TOML tables

A document is a table. How a table came to be decides what may still be put into it: a table is
opened by one header only, and a key with dots extends only tables that such keys or the headers of
subtables made on the way.
-/

namespace Calligraph.Toml

/-- How a table came to be. -/
inductive Origin where
  /-- By its own header, or as the document. -/
  | header
  /-- By the header of a table below it. -/
  | implied
  /-- By a key with dots. -/
  | dotted
  /-- Between braces; nothing is ever added to it. -/
  | inline
deriving Repr, DecidableEq, Inhabited

/-- What a key stands for. -/
inductive Item where
  | text (s : String)
  | integer (n : Int)
  | boolean (b : Bool)
  | float
  /-- A date, a time or both. -/
  | moment
  | array (items : List Item)
  | table (origin : Origin) (entries : List (String × Item))
  /-- Tables that share a name, each with its own header, the last one first. -/
  | tables (last : List (String × Item)) (earlier : List (List (String × Item)))
deriving Repr, Inhabited

/-- The entries of a table in the order they were put in. -/
abbrev Entries := List (String × Item)

namespace Entries

def replace (es : Entries) (key : String) (item : Item) : Entries :=
  es.map fun (k, i) => if k = key then (k, item) else (k, i)

/-- Adds an item under a key that is not there yet. -/
def add? (es : Entries) (key : String) (item : Item) : Option Entries :=
  if (es.lookup key).isSome then none else some (es ++ [(key, item)])

/-- Changes the table at the end of a path. Tables that are missing are made; under a name shared by
several tables the last is meant. Keys with dots do not reach into a table that has a header. -/
def descend (dotted : Bool) (change : Origin → Entries → Option Entries) :
    List String → Origin → Entries → Option Entries
  | [], origin, es => change origin es
  | key :: path, _, es =>
    match es.lookup key with
    | none => do
      let made := if dotted then Origin.dotted else .implied
      return es ++ [(key, .table made (← descend dotted change path made []))]
    | some (.table origin sub) =>
      if origin = .inline ∨ (dotted ∧ origin = .header) then none
      else return replace es key (.table origin (← descend dotted change path origin sub))
    | some (.tables last earlier) =>
      return replace es key (.tables (← descend dotted change path .header last) earlier)
    | some _ => none

/-- Adds an item under a key with dots, `path` the part before the last one. -/
def insert? (path : List String) (key : String) (item : Item) (es : Entries) : Option Entries :=
  descend true
    (fun origin es =>
      if path.isEmpty || origin = .dotted then es.add? key item else none) path .header es

def openTable? (path : List String) (key : String) (es : Entries) : Option Entries :=
  descend false
    (fun _ es =>
      match es.lookup key with
      | none => some (es ++ [(key, .table .header [])])
      | some (.table .implied sub) => some (es.replace key (.table .header sub))
      | some _ => none) path .header es

/-- Opens one more of the tables at the end of a path. -/
def openTables? (path : List String) (key : String) (es : Entries) : Option Entries :=
  descend false
    (fun _ es =>
      match es.lookup key with
      | none => some (es ++ [(key, .tables [] [])])
      | some (.tables last earlier) => some (es.replace key (.tables [] (last :: earlier)))
      | some _ => none) path .header es

end Entries

end Calligraph.Toml
