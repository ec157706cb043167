import Calligraph.Text.Blank
import Calligraph.Text.Identifier
import Calligraph.Token.Basic

/-!
# Recognising tokens

Each recogniser takes the characters that are left and gives what is left after the token it
recognises, or nothing if no such token starts there.
-/

namespace Calligraph.Scan

open Text

def exactly : List Char → List Char → Option (List Char)
  | [], cs => some cs
  | _ :: _, [] => none
  | e :: es, c :: cs => if e = c then exactly es cs else none

def startsWith (cs : List Char) (text : String) : Bool :=
  (exactly text.toList cs).isSome

/-! ### Identifiers -/

def plainIdent : List Char → Option (List Char)
  | [] => none
  | c :: cs => if isIdentStart c then some (cs.dropWhile isIdentContinue) else none

/-- Names that cannot be written raw. -/
def neverRaw : List String := ["_", "super", "self", "Self", "crate"]

/-- The text of an identifier, raw mark included, and what follows it. -/
def anyIdent (cs : List Char) : Option (String × List Char) :=
  match exactly ['r', '#'] cs with
  | some body =>
    (plainIdent body).bind fun rest =>
      let name := String.ofList (body.takeWhile isIdentContinue)
      if neverRaw.contains name then none else some ("r#" ++ name, rest)
  | none =>
    (plainIdent cs).map fun rest => (String.ofList (cs.takeWhile isIdentContinue), rest)

/-- Starts that belong to a literal, so that no identifier begins there. -/
def literalMarks : List String :=
  ["r\"", "r#\"", "r##", "b\"", "b'", "br\"", "br#", "c\"", "cr\"", "cr#"]

/-- The text of an identifier that no literal competes with, and what follows it. -/
def ident (cs : List Char) : Option (String × List Char) :=
  if literalMarks.any (startsWith cs) then none else anyIdent cs

/-- What is left after a type suffix, if one follows. -/
def afterSuffix (cs : List Char) : List Char :=
  (plainIdent cs).getD cs

/-! ### Quoted literals -/

/-- The kinds of quoted text: characters, bytes, and characters without a zero. -/
inductive TextKind where
  | chars
  | bytes
  | terminated
deriving Repr, DecidableEq

/-- The character may stand unescaped in such a text. -/
def TextKind.allows (k : TextKind) (c : Char) : Bool :=
  match k with
  | .chars => true
  | .bytes => c.toNat < 128
  | .terminated => c.toNat ≠ 0

def isHexDigit (c : Char) : Bool :=
  c.isDigit || ('a' ≤ c && c ≤ 'f') || ('A' ≤ c && c ≤ 'F')

def hexValue (c : Char) : Nat :=
  if c.isDigit then c.toNat - '0'.toNat
  else if 'a' ≤ c && c ≤ 'f' then c.toNat - 'a'.toNat + 10
  else c.toNat - 'A'.toNat + 10

def hexPair (k : TextKind) : List Char → Option (List Char)
  | a :: b :: rest =>
    let fits :=
      match k with
      | .chars => '0' ≤ a && a ≤ '7'
      | .bytes => true
      | .terminated => !(a == '0' && b == '0')
    if fits && isHexDigit a && isHexDigit b then some rest else none
  | _ => none

/-- Recognises the digits of a code point escape and its closing brace, of which `count` digits
worth `value` have been read. -/
def codePoint (value count : Nat) : List Char → Option (Nat × List Char)
  | [] => none
  | c :: rest =>
    if isHexDigit c then
      if count = 6 then none else codePoint (value * 16 + hexValue c) (count + 1) rest
    else if count = 0 then none
    else if c = '_' then codePoint value count rest
    else if c = '}' then
      if value < 0xd800 ∨ (0xdfff < value ∧ value < 0x110000) then some (value, rest) else none
    else none

def bracedCodePoint : List Char → Option (Nat × List Char)
  | '{' :: rest => codePoint 0 0 rest
  | _ => none

/-- Skips the blanks after a line that a backslash continues. A carriage return, which `cr`
says was the last character, needs its line feed. -/
def afterContinuation (cr : Bool) : List Char → Option (List Char)
  | [] => none
  | c :: rest =>
    if cr then
      if c = '\n' then afterContinuation false rest else none
    else if c = ' ' ∨ c = '\t' ∨ c = '\n' then afterContinuation false rest
    else if c = '\r' then afterContinuation true rest
    else some (c :: rest)

def escape (k : TextKind) : List Char → Option (List Char)
  | [] => none
  | c :: rest =>
    if c = 'x' then hexPair k rest
    else if c = '0' then if k = .terminated then none else some rest
    else if "nrt\\'\"".contains c then some rest
    else if c = 'u' then
      match k, bracedCodePoint rest with
      | .bytes, _ => none
      | .terminated, some (0, _) => none
      | _, found => found.map Prod.snd
    else none

/-- Recognises the rest of a quoted text, in at most as many steps as `fuel` has characters. -/
def closeQuoted (k : TextKind) : List Char → List Char → Option (List Char)
  | [], _ => none
  | _ :: _, [] => none
  | _ :: fuel, c :: rest =>
    if c = '"' then some (afterSuffix rest)
    else if c = '\r' then
      match rest with
      | '\n' :: rest => closeQuoted k fuel rest
      | _ => none
    else if c = '\\' then
      match rest with
      | '\n' :: rest => (afterContinuation false rest).bind (closeQuoted k fuel)
      | '\r' :: rest => (afterContinuation true rest).bind (closeQuoted k fuel)
      | rest => (escape k rest).bind (closeQuoted k fuel)
    else if k.allows c then closeQuoted k fuel rest
    else none

/-- Recognises the rest of a raw text that ends with a quote and `hashes` marks. -/
def closeRaw (k : TextKind) (hashes : Nat) : List Char → Option (List Char)
  | [] => none
  | c :: rest =>
    if c = '"' && (rest.take hashes).length == hashes && (rest.take hashes).all (· == '#') then
      some (afterSuffix (rest.drop hashes))
    else if c = '\r' then
      match rest with
      | '\n' :: _ => closeRaw k hashes rest
      | _ => none
    else if k.allows c then closeRaw k hashes rest
    else none

def rawText (k : TextKind) (cs : List Char) : Option (List Char) :=
  let hashes := (cs.takeWhile (· == '#')).length
  match cs.dropWhile (· == '#') with
  | '"' :: rest => if hashes ≤ 255 then closeRaw k hashes rest else none
  | _ => none

/-- Recognises a text, a byte text or a zero-terminated text, raw or not. -/
def quotedText : List Char → Option (List Char)
  | '"' :: rest => closeQuoted .chars rest rest
  | 'r' :: rest => rawText .chars rest
  | 'b' :: '"' :: rest => closeQuoted .bytes rest rest
  | 'b' :: 'r' :: rest => rawText .bytes rest
  | 'c' :: '"' :: rest => closeQuoted .terminated rest rest
  | 'c' :: 'r' :: rest => rawText .terminated rest
  | _ => none

/-- Recognises the rest of a character or byte after its opening quote. -/
def closeSingle (k : TextKind) : List Char → Option (List Char)
  | [] => none
  | c :: rest =>
    let body := if c = '\\' then escape k rest else if k.allows c then some rest else none
    match body with
    | some ('\'' :: rest) => some (afterSuffix rest)
    | _ => none

def quotedSingle : List Char → Option (List Char)
  | 'b' :: '\'' :: rest => closeSingle .bytes rest
  | '\'' :: rest => closeSingle .chars rest
  | _ => none

/-! ### Numbers -/

/-- The suffix of a number, which no identifier character may follow. -/
def afterNumber (cs : List Char) : Option (List Char) :=
  match afterSuffix cs with
  | [] => some []
  | c :: rest => if isIdentContinue c then none else some (c :: rest)

/-- Recognises the sign and digits of an exponent. -/
def exponent (signed valued : Bool) : List Char → Option (List Char)
  | [] => if valued then some [] else none
  | c :: rest =>
    if c = '+' ∨ c = '-' then
      if valued then some (c :: rest)
      else if signed then none
      else exponent true valued rest
    else if c.isDigit then exponent signed true rest
    else if c = '_' then exponent signed valued rest
    else if valued then some (c :: rest)
    else none

def mantissa (pointed : Bool) : List Char → Option (List Char)
  | [] => if pointed then some [] else none
  | c :: rest =>
    if c.isDigit ∨ c = '_' then mantissa pointed rest
    else if c = '.' ∧ ¬pointed then
      match rest with
      | d :: _ => if d = '.' ∨ isIdentStart d then none else mantissa true rest
      | [] => mantissa true rest
    else if c = 'e' ∨ c = 'E' then
      match exponent false false rest with
      | some after => some after
      | none => if pointed then some (c :: rest) else none
    else if pointed then some (c :: rest)
    else none

def float : List Char → Option (List Char)
  | c :: rest => if c.isDigit then (mantissa false rest).bind afterNumber else none
  | [] => none

/-- Recognises digits of the base; `seen` says whether there has been one. -/
def digits (base : Nat) (seen : Bool) : List Char → Option (List Char)
  | [] => if seen then some [] else none
  | c :: rest =>
    if c.isDigit then
      if hexValue c < base then digits base true rest else none
    else if isHexDigit c && hexValue c < base then digits base true rest
    else if c = '_' then
      if !seen && base == 10 then none else digits base seen rest
    else if seen then some (c :: rest)
    else none

/-- The base of an integer and its characters after the mark of the base. -/
def integerBase : List Char → Nat × List Char
  | '0' :: 'x' :: rest => (16, rest)
  | '0' :: 'o' :: rest => (8, rest)
  | '0' :: 'b' :: rest => (2, rest)
  | cs => (10, cs)

def integer (cs : List Char) : Option (List Char) :=
  let (base, rest) := integerBase cs
  (digits base false rest).bind afterNumber

/-! ### Values of numbers -/

def isIdentText : List Char → Bool
  | [] => false
  | c :: cs => isIdentStart c && cs.all isIdentContinue

/-- After the letter of an exponent: there is an exponent, so the number is no integer. -/
def hasExponent (seen : Bool) : List Char → Bool
  | [] => seen
  | c :: rest =>
    if c = '_' then hasExponent seen rest
    else if c = '+' ∨ c = '-' then true
    else if c.isDigit then hasExponent true rest
    else seen && isIdentText (c :: rest)

/-- The value of the digits and what follows them, unless the number is no integer. -/
def integerDigits (base value : Nat) : List Char → Option (Nat × List Char)
  | [] => some (value, [])
  | c :: rest =>
    if c = '_' then integerDigits base value rest
    else if isHexDigit c && hexValue c < base then
      integerDigits base (value * base + hexValue c) rest
    else if c = '.' && base == 10 then none
    else if (c = 'e' || c = 'E') && base == 10 && hasExponent false rest then none
    else some (value, c :: rest)

def literalValue (text : List Char) : Literal :=
  match text with
  | [] => .other
  | c :: _ =>
    if c = '"' || c = 'r' then .text
    else if c.isDigit then
      let (base, ds) := integerBase text
      match integerDigits base 0 ds with
      | some (value, rest) => .int value !rest.isEmpty
      | none => .float (String.ofList text)
    else .other

/-! ### Literals and operators -/

/-- A group that stands for a failed expansion and counts as a literal. -/
def errorMark : String := "(/*ERROR*/)"

def literal (cs : List Char) : Option (List Char) :=
  quotedText cs <|> quotedSingle cs <|> float cs <|> integer cs

def operatorChars : List Char := "~!@#$%^&*-=+|;:,<.>/?'".toList

/-- An operator character starts here; the start of a comment is none. -/
def startsOperator (cs : List Char) : Bool :=
  match cs with
  | [] => false
  | c :: _ => operatorChars.contains c && !startsWith cs "//" && !startsWith cs "/*"

/-! ### Comments -/

/-- The rest of a line and what follows it, from its line feed on. -/
def lineRest : List Char → List Char × List Char
  | [] => ([], [])
  | '\n' :: rest => ([], '\n' :: rest)
  | '\r' :: '\n' :: rest => ([], '\n' :: rest)
  | c :: rest => let (line, after) := lineRest rest; (c :: line, after)

/-- What follows the comment whose opening marks have been read `depth` times more often than its
closing marks. -/
def closeComment (depth : Nat) : List Char → Option (List Char)
  | '/' :: '*' :: rest => closeComment (depth + 1) rest
  | '*' :: '/' :: rest => if depth ≤ 1 then some rest else closeComment (depth - 1) rest
  | _ :: rest => closeComment depth rest
  | [] => none

/-- The character separates tokens: a blank, or a mark of the writing direction. -/
def isSpace (c : Char) : Bool :=
  isBlank c || c.toNat == 0x200e || c.toNat == 0x200f

/-- What follows blanks or a comment that documents nothing. -/
def blank (cs : List Char) : Option (List Char) :=
  if startsWith cs "//" && (!startsWith cs "///" || startsWith cs "////")
      && !startsWith cs "//!" then
    some (lineRest cs).2
  else if startsWith cs "/**/" then some (cs.drop 4)
  else if startsWith cs "/*" && (!startsWith cs "/**" || startsWith cs "/***")
      && !startsWith cs "/*!" then
    closeComment 0 cs
  else
    match cs with
    | [] => none
    | c :: rest => if isSpace c then some (rest.dropWhile isSpace) else none

/-- Every carriage return is followed by a line feed. -/
def linesEndWell : List Char → Bool
  | '\r' :: rest => rest.head? == some '\n' && linesEndWell rest
  | _ :: rest => linesEndWell rest
  | [] => true

/-- Recognises a comment that documents something; `true` if it documents what encloses it. -/
def docComment (cs : List Char) : Option (Bool × List Char) :=
  let found : Option (Bool × List Char × List Char) :=
    if startsWith cs "//!" || (startsWith cs "///" && !startsWith cs "////") then
      let (line, after) := lineRest (cs.drop 3)
      some (startsWith cs "//!", line, after)
    else if startsWith cs "/*!" || (startsWith cs "/**" && !startsWith cs "/***") then
      (closeComment 0 cs).map fun after =>
        (startsWith cs "/*!", (cs.take (cs.length - after.length - 2)).drop 3, after)
    else none
  found.bind fun (inner, text, after) => if linesEndWell text then some (inner, after) else none

end Calligraph.Scan
