import Calligraph.Toml.Item
import Calligraph.Toml.Text

/-!
# TOML documents
-/

namespace Calligraph.Toml

namespace Reader

/-- How deep arrays and inline tables may be nested, and how many names a key may have. -/
def maxDepth : Nat := 79

/-- Reads a name: bare or a text on one line. -/
def simpleKey : Reader String := do
  match ← peek? with
  | some '"' | some '\'' => lineText
  | _ => do
    let isBare (c : Char) : Bool := c.isAlphanum || c == '_' || c == '-'
    let first ← one isBare
    return String.ofList (first :: (← many isBare))

/-- Reads a key with dots of at most `count` names. -/
def key : Nat → Reader (List String)
  | 0 => failure
  | count + 1 => do
    blanks
    let first ← simpleKey
    blanks
    match ← peek? with
    | some '.' => do
      char '.'
      return first :: (← key count)
    | _ => return [first]

/-- Reads a key with dots: the names before the last one, and that. -/
def splitKey : Reader (List String × String) := do
  let names ← key maxDepth
  match names.getLast? with
  | some last => return (names.dropLast, last)
  | none => failure

def pair (value : Reader Item) : Reader (List String × String × Item) := do
  let (path, last) ← splitKey
  char '='
  blanks
  return (path, last, ← value)

def arrayRest (value : Reader Item) : Nat → Reader (List Item)
  | 0 => failure
  | fuel + 1 => do
    gap (← get).length
    match ← peek? with
    | some ']' => do
      char ']'
      return []
    | _ => do
      let first ← value
      gap (← get).length
      match ← peek? with
      | some ',' => do
        char ','
        return first :: (← arrayRest value fuel)
      | _ => do
        char ']'
        return [first]

def inlineRest (value : Reader Item) : Nat → Entries → Reader Entries
  | 0, _ => failure
  | fuel + 1, es => do
    let (path, last, item) ← pair value
    let es ← (es.insert? path last item : Option Entries)
    blanks
    match ← peek? with
    | some ',' => do
      char ','
      inlineRest value fuel es
    | _ => do
      char '}'
      return es

/-- Reads a value that holds no others. -/
def scalar : Reader Item := do
  match ← peek? with
  | some '"' | some '\'' => return .text (← text)
  | some 't' => do
    exactly "true"
    return .boolean true
  | some 'f' => do
    exactly "false"
    return .boolean false
  | _ =>
    (do
      moment
      return .moment) <|> (do
      float
      return .float) <|> (do
      return .integer (← integer))

/-- Reads a value, nested to the given depth. -/
def value : Nat → Reader Item
  | 0 => scalar
  | depth + 1 => do
    match ← peek? with
    | some '[' => do
      char '['
      return .array (← arrayRest (value depth) ((← get).length + 1))
    | some '{' => do
      char '{'
      blanks
      if (← peek?) == some '}' then
        char '}'
        return .table .inline []
      else
        return .table .inline (← inlineRest (value depth) ((← get).length + 1) [])
    | _ => scalar

/-- A document so far: its table, and the path of the last header. -/
structure Draft where
  entries : Entries := []
  header : List String := []

/-- Reads a header of one table or of several tables of one name. -/
def header (d : Draft) : Reader Draft := do
  char '['
  let shared := (← peek?) == some '['
  if shared then char '['
  let (path, last) ← splitKey
  char ']'
  if shared then char ']'
  lineRest
  let entries ← (if shared then d.entries.openTables? path last
    else d.entries.openTable? path last : Option Entries)
  return { entries, header := path ++ [last] }

/-- Reads a key and its value into the table of the last header. -/
def assignment (d : Draft) : Reader Draft := do
  let (path, last, item) ← pair (value maxDepth)
  lineRest
  let entries ←
    (Entries.descend false (fun _ es => es.insert? path last item) d.header .header d.entries :
      Option Entries)
  return { d with entries }

def lines : Nat → Draft → Reader Entries
  | 0, _ => failure
  | fuel + 1, d => do
    blanks
    match ← peek? with
    | none => return d.entries
    | some '#' => do
      comment
      lineEnd
      lines fuel d
    | some '\n' => do
      newline
      lines fuel d
    | some '[' => do
      lines fuel (← header d)
    | some _ => do
      lines fuel (← assignment d)

end Reader

/-- The table of a document, if it is well formed. -/
def parse? (text : String) : Option Entries :=
  let cs := Reader.unifyLines text.toList
  let cs := match cs with
    | c :: rest => if c.toNat = 0xfeff then rest else cs
    | [] => cs
  (Reader.lines (cs.length + 1) {} cs).map Prod.fst

/-! ### Reading values of a known form -/

namespace Item

def text? : Item → Option String
  | .text s => some s
  | _ => none

def bool? : Item → Option Bool
  | .boolean b => some b
  | _ => none

/-- An integer that is not negative. -/
def nat? : Item → Option Nat
  | .integer n => if 0 ≤ n then some n.toNat else none
  | _ => none

/-- The items of an array, or the tables of one name. -/
def list? : Item → Option (List Item)
  | .array items => some items
  | .tables last earlier => some ((last :: earlier).reverse.map (.table .header))
  | _ => none

def texts? (i : Item) : Option (List String) := do
  (← i.list?).mapM text?

/-- A word that is given as a text, or as the only key of a table with nothing under it. -/
def word? : Item → Option String
  | .text s => some s
  | .table _ [(word, .table _ [])] => some word
  | .table _ [(word, .array [])] => some word
  | _ => none

end Item

namespace Entries

def onlyHas (es : Entries) (names : List String) : Bool :=
  es.all fun (k, _) => names.contains k

/-- The value of a key that may be missing; fails if it has another form. -/
def optional? {α : Type} (es : Entries) (name : String) (read : Item → Option α) :
    Option (Option α) :=
  match es.lookup name with
  | none => some none
  | some item => (read item).map some

end Entries

end Calligraph.Toml
