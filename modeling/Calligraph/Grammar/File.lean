import Calligraph.Grammar.Item
import Calligraph.Token.Tree

/-!
# Reading a source file

`SourceFile.parse` reads the text of a file into its items, or gives the place where reading
stopped.
-/

namespace Calligraph

namespace Grammar

/-- The rules over the rules one level of nesting further in. -/
def step (g : Grammar) : Grammar where
  ty := g.typeRule
  bound := g.boundRule
  pat := g.patternRule
  expr := g.exprRule
  early := g.earlyRule
  unary := g.unaryRule
  operators := g.operatorsRule
  body := g.bodyRule
  item := g.itemRule
  useTree := g.useTreeRule
  record := g.fields .brace

/-- The rules for `depth` levels of nesting. -/
def levels (depth : Nat) : Grammar :=
  Nat.repeat step depth empty

open Parse in
def file (g : Grammar) : Parse (List Item) := do
  discard g.innerAttrs
  manyToEnd g.item

/-- How many rules can be open at once without reading a token. -/
def rulesPerToken : Nat := 8

/-- The items that tokens stand for. A token left over between delimiters is reported if nothing
else fails. -/
def items (tokens : List Token) : Except Position (List Item) :=
  let g := levels (rulesPerToken * (Token.sizes tokens + 1))
  match g.file ⟨tokens, .start, none, []⟩ with
  | .error p => .error p
  | .ok (items, rest) =>
    match rest.stray with
    | some p => .error p
    | none => .ok items

end Grammar

namespace SourceFile

/-- The text without the mark of the byte order at its start. -/
def withoutMark : List Char → List Char
  | [] => []
  | c :: cs => if c.toNat = 0xfeff then cs else c :: cs

/-- What follows the blanks and comments at the start. -/
def afterBlanks : Nat → List Char → List Char
  | 0, cs => cs
  | fuel + 1, cs =>
    match Scan.blank cs with
    | some rest => afterBlanks fuel rest
    | none => cs

/-- The text without the line that names an interpreter; its line feed stays. -/
def withoutInterpreter (cs : List Char) : List Char :=
  match cs with
  | '#' :: '!' :: rest =>
    if (afterBlanks rest.length rest).head? = some '[' then cs else cs.dropWhile (· ≠ '\n')
  | cs => cs

/-- The items of a file, or the place where reading stopped. -/
def parse (text : String) : Except Position (List Item) := do
  Grammar.items (← Token.read (withoutInterpreter (withoutMark text.toList)))

end SourceFile

end Calligraph
