import Calligraph.FrontEnd
import Calligraph.Text.Blank
import Std.Data.TreeSet

/-!
# Outlines

A small language of indented lines, two blanks for each level. `decl NAME` declares a routine,
`call NAME` calls one, `call ?` calls nobody knows what, `ctor NAME` calls a routine only if there
is one of that name, and `mod NAME` holds what is below it. A reference is a list of names.
-/

namespace Calligraph

namespace Outline

/-- What a line stands for. -/
inductive Entry where
  | root
  | module
  | routine (name : String)
  | call (name : Option String)
  | construct (name : String)
deriving Repr, DecidableEq, Inhabited

def Entry.kind : Entry → NodeKind
  | .root => .other
  | .module => .other
  | .routine _ => .declaration
  | .call _ => .call
  | .construct _ => .call

/-- The lines of a text, each without its line feed and a carriage return before that. -/
def lines (cs : List Char) : List (List Char) :=
  let pieces := cs.splitOn '\n'
  let ended := pieces.dropLast.map fun line =>
    if line.getLast? = some '\r' then line.dropLast else line
  match pieces.getLast? with
  | some [] | none => ended
  | some last => ended ++ [last]

def entry? (content : List Char) : Option Entry :=
  match content.span (· ≠ ' ') with
  | (_, []) => none
  | (word, _ :: name) =>
    match String.ofList word, String.ofList name with
    | "decl", name => some (.routine name)
    | "call", "?" => some (.call none)
    | "call", name => some (.call (some name))
    | "ctor", name => some (.construct name)
    | "mod", _ => some .module
    | _, _ => none

/-- The tree so far, and the lines that another line may be below, each with its depth and its node,
the innermost first. -/
structure Growth where
  arena : Arena Entry := .new .root
  above : List (Nat × Nat) := []

/-- Adds the line with the number `line`. Blank lines stand for nothing. -/
def Growth.add (g : Growth) (line : Nat) (text : List Char) : Except Fault Growth :=
  let content := Text.trimStart text
  if content.isEmpty then .ok g
  else
    let indent := (String.ofList text).utf8ByteSize - (String.ofList content).utf8ByteSize
    let depth := indent / 2
    let above := g.above.dropWhile fun (d, _) => depth ≤ d
    match entry? content with
    | none =>
      .error (.malformed ⟨line, indent⟩ ("unexpected `" ++ String.ofList content ++ "`"))
    | some entry =>
      let parent := (above.head?.map Prod.snd).getD 0
      .ok
        { arena := g.arena.push parent entry.kind ⟨line, indent⟩ entry
          above := (depth, g.arena.size) :: above }

def parse (text : String) : Except Fault (Arena Entry) := do
  let numbered := (lines text.toList).mapIdx fun i line => (i + 1, line)
  let g ← numbered.foldlM (fun g (i, line) => g.add i line) ({} : Growth)
  return g.arena

def words (text : String) : List String :=
  ((text.toList.splitOnP Text.isBlank).filter (! ·.isEmpty)).map String.ofList

def declaredNames (tree : Arena Entry) : List String :=
  tree.nodes.toList.filterMap fun n =>
    match n.payload with
    | .routine name => some name
    | _ => none

def frontEnd : FrontEnd where
  Payload := Entry
  Tree := Arena Entry
  Library := List String
  Bindings := Std.TreeSet String
  Routine := String
  arena tree := tree
  parse source := parse source.text
  load reference :=
    match reference.text with
    | .inline text => .ok (words text)
    | .file path _ => .error (.unopened path)
  bind trees libraries := .ofList (trees.flatMap declaredNames ++ libraries.flatten)
  declared _ tree node :=
    match tree.payload? node with
    | some (.routine name) => some name
    | _ => none
  referenced names tree node :=
    match tree.payload? node with
    | some (.call (some name)) | some (.construct name) =>
      if names.contains name then some name else none
    | _ => none
  isCall names tree node :=
    match tree.payload? node with
    | some (.construct name) => names.contains name
    | _ => true
  display name := name

end Outline

end Calligraph
