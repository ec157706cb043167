import Calligraph.Analysis

/-!
# Reports as JSON

The nodes and edges of a graph and the diagnostics, on indented lines.
-/

namespace Calligraph

inductive JsonValue where
  | text (s : String)
  | number (n : Nat)
  | boolean (b : Bool)
  | list (items : List JsonValue)
  | object (fields : List (String × JsonValue))
deriving Repr, Inhabited

namespace JsonValue

def hexDigit (n : Nat) : Char :=
  "0123456789abcdef".toList.getD n '0'

/-- How a character stands between quotes. -/
def escapeChar (c : Char) : List Char :=
  match c with
  | '"' => ['\\', '"']
  | '\\' => ['\\', '\\']
  | '\n' => ['\\', 'n']
  | '\r' => ['\\', 'r']
  | '\t' => ['\\', 't']
  | c =>
    let n := c.toNat
    if n = 8 then ['\\', 'b']
    else if n = 12 then ['\\', 'f']
    else if n < 32 then ['\\', 'u', '0', '0', hexDigit (n / 16), hexDigit (n % 16)]
    else [c]

def quoted (text : String) : String :=
  "\"" ++ String.ofList (text.toList.flatMap escapeChar) ++ "\""

/-- The start of a line, two blanks for each level. -/
def margin (level : Nat) : String :=
  "\n" ++ String.ofList (List.replicate (2 * level) ' ')

mutual

/-- The text of a value on lines that are indented by `level`. -/
def pretty (level : Nat) : JsonValue → String
  | .text s => quoted s
  | .number n => toString n
  | .boolean b => if b then "true" else "false"
  | .list [] => "[]"
  | .list items =>
    "[" ++ ",".intercalate (prettyItems (level + 1) items) ++ margin level ++ "]"
  | .object [] => "\x7b\x7d"
  | .object fields =>
    "\x7b" ++ ",".intercalate (prettyFields (level + 1) fields) ++ margin level ++ "\x7d"

/-- The items of a list, each with its margin. -/
def prettyItems (level : Nat) : List JsonValue → List String
  | [] => []
  | v :: rest => (margin level ++ v.pretty level) :: prettyItems level rest

def prettyFields (level : Nat) : List (String × JsonValue) → List String
  | [] => []
  | (name, v) :: rest =>
    (margin level ++ quoted name ++ ": " ++ v.pretty level) :: prettyFields level rest

end

end JsonValue

namespace Report

def nodeJson (s : Symbol) : JsonValue :=
  .object [("name", .text s.text), ("sentinel", .boolean s.isSentinel)]

def edgeJson (e : Edge) : JsonValue :=
  .object [("from", .text e.caller.text), ("to", .text e.callee.text)]

def diagnosticJson (d : Diagnostic) : JsonValue :=
  let kind := match d.kind with
    | .unresolvedCaller => "unresolved_caller"
    | .unresolvedCallee => "unresolved_callee"
  .object
    [("kind", .text kind), ("unit", .text d.unit), ("line", .number d.position.line),
      ("column", .number d.position.column)]

def json (r : Report) : JsonValue :=
  .object
    [("nodes", .list (r.graph.symbols.map nodeJson)),
      ("edges", .list (r.graph.edges.map edgeJson)),
      ("diagnostics", .list (r.diagnostics.map diagnosticJson))]

def renderJson (r : Report) : String :=
  r.json.pretty 0 ++ "\n"

end Report

end Calligraph
