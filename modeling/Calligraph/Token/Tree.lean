import Calligraph.Token.Scan

/-!
# Reading the tokens of a text

`Token.read` gives the tokens of a text with the groups closed, or the place that no token starts
at: a group left open is reported where it opens, a wrong closing delimiter where it stands.
-/

namespace Calligraph

namespace Token

/-- A token without its place, or a step that yields none. -/
inductive Lexeme where
  | blank
  | doc (inner : Bool)
  | opening (delimiter : Delimiter)
  | closing (delimiter : Delimiter)
  | ident (name : String)
  | lifetime (name : String)
  | punct (char : Char) (joint : Bool)
  | literal (value : Literal)

/-- How many characters of `cs` were read when `rest` of them is left. -/
def readTo (rest cs : List Char) : Nat :=
  cs.length - rest.length

/-- A quote that starts a lifetime, with the number of its characters; where the name is no
identifier, the quote stands alone. -/
def lifetimeLexeme (rest : List Char) : Option (Lexeme × Nat) :=
  (Scan.anyIdent rest).bind fun (_, after) =>
    if after.head? == some '\'' || (after.head? == some '#' && !Scan.startsWith rest "r#") then none
    else
      match Scan.literal rest, Scan.ident rest with
      | none, some (name, _) => some (.lifetime name, name.length + 1)
      | _, _ => some (.punct '\'' true, 1)

/-- A literal, an operator character or an identifier, with the number of its characters. -/
def leafLexeme (cs : List Char) : Option (Lexeme × Nat) :=
  match Scan.literal cs with
  | some rest =>
    let n := readTo rest cs
    some (.literal (Scan.literalValue (cs.take n)), n)
  | none =>
    match cs with
    | [] => none
    | c :: rest =>
      if Scan.startsOperator cs then
        if c = '\'' then lifetimeLexeme rest else some (.punct c (Scan.startsOperator rest), 1)
      else
        match Scan.ident cs with
        | some (name, _) => some (.ident name, name.length)
        | none =>
          if Scan.startsWith cs Scan.errorMark then some (.literal .other, Scan.errorMark.length)
          else none

def lexeme (cs : List Char) : Option (Lexeme × Nat) :=
  match Scan.blank cs, Scan.docComment cs with
  | some rest, _ =>
    if cs.head?.any Scan.isSpace then some (.blank, (cs.takeWhile Scan.isSpace).length)
    else some (.blank, readTo rest cs)
  | none, some (inner, rest) => some (.doc inner, readTo rest cs)
  | none, none =>
    match cs with
    | '(' :: _ =>
      if Scan.startsWith cs Scan.errorMark then leafLexeme cs else some (.opening .paren, 1)
    | '[' :: _ => some (.opening .bracket, 1)
    | '{' :: _ => some (.opening .brace, 1)
    | ')' :: _ => some (.closing .paren, 1)
    | ']' :: _ => some (.closing .bracket, 1)
    | '}' :: _ => some (.closing .brace, 1)
    | _ => leafLexeme cs

/-- A group that is still open, with the tokens before it, last first. -/
structure OpenGroup where
  delimiter : Delimiter
  opened : Position
  before : List Token

/-- A documentation comment as the attribute it stands for, last token first. -/
def docTokens (inner : Bool) (pos : Position) : List Token :=
  let text := .group .bracket pos pos
    [.ident "doc" pos, .punct '=' false pos, .literal .text pos]
  if inner then [text, .punct '!' false pos, .punct '#' false pos]
  else [text, .punct '#' false pos]

/-- Reads on from `pos`; `done` holds the tokens of the innermost open group, last first. -/
def readFrom (pos : Position) (cs : List Char) (groups : List OpenGroup) (done : List Token) :
    Except Position (List Token) :=
  match cs, lexeme cs with
  | [], _ =>
    match groups with
    | [] => .ok done.reverse
    | g :: _ => .error g.opened
  | _, none | _, some (_, 0) => .error pos
  | c :: after, some (lex, n + 1) =>
    let next := pos.advance (c :: after.take n)
    let rest := after.drop n
    match lex with
    | .blank => readFrom next rest groups done
    | .doc inner => readFrom next rest groups (docTokens inner pos ++ done)
    | .opening d => readFrom next rest (⟨d, pos, done⟩ :: groups) []
    | .closing d =>
      match groups with
      | g :: outer =>
        if g.delimiter = d then
          readFrom next rest outer (.group d g.opened pos done.reverse :: g.before)
        else .error pos
      | [] => .error pos
    | .ident name => readFrom next rest groups (.ident name pos :: done)
    | .lifetime name => readFrom next rest groups (.lifetime name pos :: done)
    | .punct c joint => readFrom next rest groups (.punct c joint pos :: done)
    | .literal value => readFrom next rest groups (.literal value pos :: done)
termination_by cs.length

/-- The tokens of a text, or the place that no token starts at. A mark of the byte order at the
start is skipped. -/
def read (cs : List Char) : Except Position (List Token) :=
  match cs with
  | c :: rest =>
    if c.toNat = 0xfeff then readFrom (Position.start.next c) rest [] []
    else readFrom .start cs [] []
  | [] => .ok []

end Token

end Calligraph
