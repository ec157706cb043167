/-!
# Texts and numbers in TOML
-/

namespace Calligraph.Toml

/-- Reads some of the characters or fails. A failure is a failure of the whole document. -/
abbrev Reader := StateT (List Char) Option

namespace Reader

def peek? : Reader (Option Char) := do
  return (← get).head?

def one (p : Char → Bool) : Reader Char := fun
  | c :: rest => if p c then some (c, rest) else none
  | [] => none

def char (c : Char) : Reader Unit := do
  let _ ← one (· == c)

def exactly (text : String) : Reader Unit :=
  text.toList.forM char

def many (p : Char → Bool) : Reader (List Char) := fun cs =>
  some (cs.takeWhile p, cs.dropWhile p)

/-- Reads what `r` reads, or nothing if `r` fails. -/
def optional? {α : Type} (r : Reader α) : Reader (Option α) := fun cs =>
  match r cs with
  | some (a, rest) => some (some a, rest)
  | none => some (none, cs)

/-! ### Blanks and comments -/

def blanks : Reader Unit := do
  let _ ← many fun c => c == ' ' || c == '\t'

/-- The character may stand in texts and comments. -/
def plain (c : Char) : Bool :=
  c == '\t' || (0x20 ≤ c.toNat && c.toNat ≠ 0x7f)

/-- The characters with every end of a line as a line feed alone. -/
def unifyLines : List Char → List Char
  | '\r' :: '\n' :: rest => '\n' :: unifyLines rest
  | c :: rest => c :: unifyLines rest
  | [] => []

def newline : Reader Unit :=
  char '\n'

def comment : Reader Unit := do
  char '#'
  let _ ← many plain

def lineEnd : Reader Unit := do
  match ← peek? with
  | none => return
  | some _ => newline

/-- Reads the rest of a line that holds nothing more but a comment. -/
def lineRest : Reader Unit := do
  blanks
  if (← peek?) == some '#' then comment
  lineEnd

/-- Skips blanks, comments and ends of lines; at most `fuel` of them. -/
def gap : Nat → Reader Unit
  | 0 => return
  | fuel + 1 => do
    blanks
    match ← peek? with
    | some '#' => do
      comment
      newline
      gap fuel
    | some '\n' => do
      newline
      gap fuel
    | _ => return

/-! ### Texts -/

def hexValue (c : Char) : Nat :=
  if c.isDigit then c.toNat - '0'.toNat
  else if c.isUpper then c.toNat - 'A'.toNat + 10
  else c.toNat - 'a'.toNat + 10

def isHex (c : Char) : Bool :=
  c.isDigit || ('a' ≤ c && c ≤ 'f') || ('A' ≤ c && c ≤ 'F')

def number (base : Nat) (digits : List Char) : Nat :=
  digits.foldl (fun n c => base * n + hexValue c) 0

/-- Reads the code point of a character in `count` digits. -/
def codePoint (count : Nat) : Reader Char := do
  let digits ← (List.replicate count ()).mapM fun _ => one isHex
  let n := number 16 digits
  if n.isValidChar then return Char.ofNat n else failure

def escape : Reader Char := do
  match ← one fun _ => true with
  | 'b' => return Char.ofNat 8
  | 't' => return '\t'
  | 'n' => return '\n'
  | 'f' => return Char.ofNat 12
  | 'r' => return '\r'
  | '"' => return '"'
  | '\\' => return '\\'
  | 'u' => codePoint 4
  | 'U' => codePoint 8
  | _ => failure

/-- Reads a text up to its closing quote, at most `fuel` characters. -/
def basicRest : Nat → Reader (List Char)
  | 0 => failure
  | fuel + 1 => do
    match ← one plain with
    | '"' => return []
    | '\\' => do
      let c ← escape
      return c :: (← basicRest fuel)
    | c => return c :: (← basicRest fuel)

/-- Reads the rest of a text without escapes. -/
def literalRest : Reader (List Char) := do
  let body ← many fun c => plain c && c != '\''
  char '\''
  return body

/-- After a backslash, skips blanks and ends of lines if the line ends here. -/
def lineBreak? (cs : List Char) : Option (List Char) :=
  match cs.dropWhile fun c => c == ' ' || c == '\t' with
  | '\n' :: rest => some (rest.dropWhile fun c => c == ' ' || c == '\t' || c == '\n')
  | _ => none

/-- Reads a text of several lines up to its closing quotes, of which there may be up to two more
that belong to the text. Without `escapes` a backslash stands for itself. -/
def linesRest (quote : Char) (escapes : Bool) : Nat → Reader (List Char)
  | 0 => failure
  | fuel + 1 => do
    let close := [quote, quote, quote]
    let cs ← get
    if cs.take 3 == close then
      let more := ((cs.drop 3).take 2).takeWhile (· == quote)
      set (cs.drop (3 + more.length))
      return more
    else
      let c ← one fun c => plain c || c == '\n'
      if escapes && c == '\\' then
        match lineBreak? (← get) with
        | some rest => do
          set rest
          linesRest quote escapes fuel
        | none => do
          let c ← escape
          return c :: (← linesRest quote escapes fuel)
      else
        return c :: (← linesRest quote escapes fuel)

def lineText : Reader String := do
  match ← one fun c => c == '"' || c == '\'' with
  | '"' => return String.ofList (← basicRest ((← get).length + 1))
  | _ => return String.ofList (← literalRest)

def text : Reader String := do
  let cs ← get
  let quote := cs.headD ' '
  if cs.take 3 == ['"', '"', '"'] || cs.take 3 == ['\'', '\'', '\''] then
    set (cs.drop 3)
    let _ ← optional? newline
    let rest ← get
    return String.ofList (← linesRest quote (quote == '"') (rest.length + 1))
  else
    lineText

/-! ### Numbers -/

/-- The digits at the start; a line may stand between two of them. -/
def digitsTail (isDigit : Char → Bool) : List Char → List Char × List Char
  | '_' :: c :: rest =>
    if isDigit c then
      let (ds, rest') := digitsTail isDigit rest
      (c :: ds, rest')
    else ([], '_' :: c :: rest)
  | c :: rest =>
    if isDigit c then
      let (ds, rest') := digitsTail isDigit rest
      (c :: ds, rest')
    else ([], c :: rest)
  | [] => ([], [])

def digits (isDigit : Char → Bool) : Reader (List Char) := do
  let first ← one isDigit
  let cs ← get
  let (ds, rest) := digitsTail isDigit cs
  set rest
  return first :: ds

/-- Reads a sign: the number is negative. -/
def sign : Reader Bool := do
  match ← optional? (one fun c => c == '+' || c == '-') with
  | some '-' => return true
  | _ => return false

/-- Reads decimal digits without a needless zero in front. -/
def decimal : Reader (List Char) := do
  match ← peek? with
  | some '0' => do
    char '0'
    return ['0']
  | _ => digits Char.isDigit

/-- Reads an integer of 64 bits. -/
def integer : Reader Int := do
  let n ← (do
    char '0'
    match ← one fun _ => true with
    | 'x' => return Int.ofNat (number 16 (← digits isHex))
    | 'o' => return Int.ofNat (number 8 (← digits fun c => '0' ≤ c && c ≤ '7'))
    | 'b' => return Int.ofNat (number 2 (← digits fun c => c == '0' || c == '1'))
    | _ => failure) <|> (do
    let negative ← sign
    let n := Int.ofNat (number 10 (← decimal))
    return if negative then -n else n)
  if -0x8000000000000000 ≤ n ∧ n < 0x8000000000000000 then return n else failure

/-- The number `n * 10 ^ e` is nearer to a float of 64 bits than to the power of two after the last
one. Far from that bound the count of digits decides. -/
def isFinite (n : Nat) (e : Int) : Bool :=
  let bound := Nat.pow 2 1024 - Nat.pow 2 970
  let places := Int.ofNat (Nat.toDigits 10 n).length + e
  if n = 0 || places ≤ 308 then true
  else if 310 ≤ places then false
  else n * Nat.pow 10 e.toNat < bound * Nat.pow 10 (-e).toNat

/-- Reads a number that is no integer. One that is too large fails, one that is too small is minus
infinity. -/
def float : Reader Unit := do
  let negative ← sign
  (exactly "inf" <|> exactly "nan" <|> do
    let whole ← decimal
    let fraction ← optional? do
      char '.'
      digits Char.isDigit
    let exponent ← optional? do
      let _ ← one fun c => c == 'e' || c == 'E'
      let down ← sign
      let n := Int.ofNat (number 10 (← digits Char.isDigit))
      return if down then -n else n
    if fraction.isNone && exponent.isNone then failure
    let places := fraction.getD []
    unless negative ||
        isFinite (number 10 (whole ++ places)) (exponent.getD 0 - Int.ofNat places.length) do
      failure)

def field (count : Nat) : Reader Nat := do
  let ds ← (List.replicate count ()).mapM fun _ => one Char.isDigit
  return number 10 ds

def daysIn (year month : Nat) : Nat :=
  if month == 2 then
    if (year % 4 == 0 && year % 100 != 0) || year % 400 == 0 then 29 else 28
  else if month == 4 || month == 6 || month == 9 || month == 11 then 30
  else 31

def date : Reader Unit := do
  let year ← field 4
  char '-'
  let month ← field 2
  char '-'
  let day ← field 2
  unless 1 ≤ month && month ≤ 12 && 1 ≤ day && day ≤ daysIn year month do failure

def clock : Reader Unit := do
  let hour ← field 2
  char ':'
  let minute ← field 2
  unless hour ≤ 23 && minute ≤ 59 do failure

def time : Reader Unit := do
  clock
  char ':'
  let second ← field 2
  unless second ≤ 60 do failure
  let _ ← optional? do
    char '.'
    let _ ← one Char.isDigit
    many Char.isDigit

def offset : Reader Unit := do
  match ← one fun c => c == 'Z' || c == 'z' || c == '+' || c == '-' with
  | '+' | '-' => clock
  | _ => return

def moment : Reader Unit :=
  (do
    date
    let _ ← optional? do
      let _ ← one fun c => c == 'T' || c == 't' || c == ' '
      time
      let _ ← optional? offset) <|> time

end Reader

end Calligraph.Toml
