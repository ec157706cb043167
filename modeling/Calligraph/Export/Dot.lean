import Calligraph.CallGraph

/-!
# Graphs as DOT

One line for each edge in the order of the graph.
-/

namespace Calligraph.Dot

/-- How a character stands between quotes. -/
def escapeChar : Char → List Char
  | '\\' => ['\\', '\\']
  | '"' => ['\\', '"']
  | '\n' => ['\\', 'n']
  | c => [c]

def quoted (text : String) : String :=
  "\"" ++ String.ofList (text.toList.flatMap escapeChar) ++ "\""

def edgeLine (e : Edge) : String :=
  "\t" ++ quoted e.caller.text ++ " -> " ++ quoted e.callee.text ++ ";"

def lines (g : CallGraph) : List String :=
  ["digraph graph_name \x7b", "\tgraph [ rankdir = LR ];"] ++ g.edges.map edgeLine ++ ["\x7d"]

def render (g : CallGraph) : String :=
  String.join ((lines g).map (· ++ "\n"))

end Calligraph.Dot
