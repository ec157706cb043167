import Calligraph.Syntax.Basic
import Calligraph.Token.Basic

/-!
# Parsers over tokens

A parser reads from the tokens between a pair of delimiters and fails with a place. Looking ahead is
done by plain predicates on the tokens that are left.
-/

namespace Calligraph

/-- What a parser reads and has found on the way. -/
structure Input where
  tokens : List Token
  /-- The place of a failure where the tokens end. -/
  close : Position
  /-- The first token that was left over between delimiters. -/
  stray : Option Position := none
  /-- Expressions found inside types and patterns, last first. -/
  held : List Expr := []

/-- Reads some of the input or fails with a place. -/
abbrev Parse := StateT Input (Except Position)

def Input.here (i : Input) : Position :=
  match i.tokens with
  | t :: _ => t.pos
  | [] => i.close

/-! ### Looking ahead -/

namespace Ahead

def word (ts : List Token) (w : String) : Bool :=
  match ts with
  | .ident n _ :: _ => n == w
  | _ => false

/-- The next tokens are the operator characters `cs` without a gap between them. -/
def chars : List Char → List Token → Bool
  | [c], .punct c' _ _ :: _ => c == c'
  | c :: cs, .punct c' joint _ :: ts => c == c' && joint && chars cs ts
  | _, _ => false

/-- The next tokens are the operator `op`, or start with it. -/
def punct (ts : List Token) (op : String) : Bool :=
  chars op.toList ts

def group (ts : List Token) (d : Delimiter) : Bool :=
  match ts with
  | t :: _ => t.isGroup d
  | [] => false

/-- Words that cannot name anything. -/
def reserved : List String :=
  ["_", "abstract", "as", "async", "await", "become", "box", "break", "const", "continue", "crate",
    "do", "dyn", "else", "enum", "extern", "false", "final", "fn", "for", "if", "impl", "in", "let",
    "loop", "macro", "match", "mod", "move", "mut", "override", "priv", "pub", "ref", "return",
    "Self", "self", "static", "struct", "super", "trait", "true", "try", "type", "typeof", "unsafe",
    "unsized", "use", "virtual", "where", "while", "yield"]

def ident (ts : List Token) : Bool :=
  match ts with
  | .ident n _ :: _ => !reserved.contains n
  | _ => false

/-- The next token is a name or a word. -/
def anyIdent (ts : List Token) : Bool :=
  match ts with
  | .ident .. :: _ => true
  | _ => false

def lifetime (ts : List Token) : Bool :=
  match ts with
  | .lifetime .. :: _ => true
  | _ => false

/-- The next tokens are a literal: its decimal digits if it is an integer, and what follows. A minus
sign may belong to a number. -/
def literal? (ts : List Token) : Option (Option String × List Token) :=
  match ts with
  | .literal (.int n _) _ :: rest => some (some (toString n), rest)
  | .literal _ _ :: rest => some (none, rest)
  | .ident n _ :: rest => if n == "true" || n == "false" then some (none, rest) else none
  | .punct '-' _ _ :: .literal (.int n _) _ :: rest => some (some ("-" ++ toString n), rest)
  | .punct '-' _ _ :: .literal (.float _) _ :: rest => some (none, rest)
  | _ => none

def literal (ts : List Token) : Bool :=
  (literal? ts).isSome

def text (ts : List Token) : Bool :=
  match ts with
  | .literal .text _ :: _ => true
  | _ => false

/-- The next token is a name, or one of the words that start a path. -/
def pathStart (ts : List Token) : Bool :=
  ident ts || word ts "self" || word ts "super" || word ts "crate" || punct ts "::"

end Ahead

namespace Parse

/-! ### Reading tokens -/

def fail {α : Type} : Parse α := fun i => .error i.here

def failAt {α : Type} (p : Position) : Parse α := fun _ => .error p

def ahead : Parse (List Token) := do
  return (← get).tokens

def atEnd : Parse Bool := do
  return (← get).tokens.isEmpty

def here : Parse Position := do
  return (← get).here

/-- Goes on with the tokens `ts`. -/
def continueAt (ts : List Token) : Parse Unit :=
  modify fun i => { i with tokens := ts }

def skip (n : Nat) : Parse Unit :=
  modify fun i => { i with tokens := i.tokens.drop n }

def word (w : String) : Parse Unit := do
  if Ahead.word (← ahead) w then skip 1 else fail

def punct (op : String) : Parse Unit := do
  if Ahead.punct (← ahead) op then skip op.length else fail

def optWord (w : String) : Parse Bool := do
  if Ahead.word (← ahead) w then skip 1; return true else return false

def optPunct (op : String) : Parse Bool := do
  if Ahead.punct (← ahead) op then skip op.length; return true else return false

def anyIdent : Parse String := do
  match ← ahead with
  | .ident n _ :: ts => continueAt ts; return n
  | _ => fail

def ident : Parse String := do
  if Ahead.ident (← ahead) then anyIdent else fail

def lifetime : Parse String := do
  match ← ahead with
  | .lifetime n _ :: ts => continueAt ts; return n
  | _ => fail

def optLifetime : Parse (Option String) := do
  if Ahead.lifetime (← ahead) then return some (← lifetime) else return none

/-- Reads a literal and gives its decimal digits if it is an integer. -/
def literal : Parse (Option String) := do
  match Ahead.literal? (← ahead) with
  | some (digits, ts) => continueAt ts; return digits
  | none => fail

/-- Reads a group between the delimiters `d` with `p` and what follows it with `rest`. What `p`
leaves is remembered after all that `rest` leaves. -/
def groupThen {α β : Type} (d : Delimiter) (p : Parse α) (rest : α → Parse β) : Parse β := do
  match ← ahead with
  | .group d' _ closed inner :: ts =>
    if d = d' then
      let close := (← get).close
      modify fun i => { i with tokens := inner, close := closed }
      let a ← p
      let left := (← ahead).head?.map Token.pos
      modify fun i => { i with tokens := ts, close }
      let b ← rest a
      modify fun i => { i with stray := i.stray <|> left }
      return b
    else fail
  | _ => fail

/-- Reads a group between the delimiters `d` with `p`. What `p` leaves is remembered. -/
def group {α : Type} (d : Delimiter) (p : Parse α) : Parse α :=
  groupThen d p pure

/-- Reads a group between any delimiters as it stands. -/
def anyGroup : Parse (Delimiter × Position × List Token) := do
  match ← ahead with
  | .group d _ closed inner :: ts => continueAt ts; return (d, closed, inner)
  | _ => fail

/-- Reads with `p`, or nothing if `p` fails. -/
def attempt {α : Type} (p : Parse α) : Parse (Option α) := fun i =>
  match p i with
  | .ok (a, j) => .ok (some a, j)
  | .error _ => .ok (none, i)

/-! ### Expressions held aside -/

/-- Holds expressions for whatever is being read. -/
def hold (es : List Expr) : Parse Unit :=
  modify fun i => { i with held := es.reverse ++ i.held }

/-- Reads with `p` and gives the expressions held meanwhile. -/
def holding {α : Type} (p : Parse α) : Parse (α × List Expr) := do
  let outer := (← get).held
  modify fun i => { i with held := [] }
  let a ← p
  let inner := (← get).held
  modify fun i => { i with held := outer }
  return (a, inner.reverse)

/-- Reads with `p` and forgets the expressions held meanwhile. -/
def alone {α : Type} (p : Parse α) : Parse α := do
  return (← holding p).1

/-- Reads with `p` and forgets the expressions held meanwhile if what it gives is `silent`. -/
def aloneIf {α : Type} (silent : α → Bool) (p : Parse α) : Parse α := do
  let (a, es) ← holding p
  unless silent a do hold es
  return a

/-! ### Sequences -/

/-- What one round found, and whether another follows. -/
inductive Round (α : Type) where
  | stop
  | last (a : α)
  | next (a : α)

/-- Runs `round`, with the elements found so far, last first. Every round but the last reads a
token, so `fuel`, the tokens at the start, outlasts the rounds. -/
def roundsFrom {α : Type} (round : Parse (Round α)) (fuel : List Token) (found : List α) :
    Parse (List α) := do
  match ← round, fuel with
  | .stop, _ => return found.reverse
  | .last a, _ => return (a :: found).reverse
  | .next a, _ :: fuel => roundsFrom round fuel (a :: found)
  | .next _, [] => fail

/-- Runs `round` until it says that nothing follows. Every round but the last reads a token. -/
def rounds {α : Type} (round : Parse (Round α)) : Parse (List α) := do
  roundsFrom round (← ahead) []

/-- Reads elements with `p` while the tokens ahead satisfy `go`. -/
def many {α : Type} (go : List Token → Bool) (p : Parse α) : Parse (List α) :=
  rounds do
    if go (← ahead) then return .next (← p) else return .stop

def manyToEnd {α : Type} (p : Parse α) : Parse (List α) :=
  many (fun ts => !ts.isEmpty) p

/-- Reads elements with `p` until the tokens ahead satisfy `stop`, each but the last followed by the
operator `op`. -/
def separated {α : Type} (op : String) (stop : List Token → Bool) (p : Parse α) :
    Parse (List α) :=
  rounds do
    if stop (← ahead) then return .stop
    let a ← p
    if stop (← ahead) then return .last a
    punct op
    return .next a

def commas {α : Type} (p : Parse α) : Parse (List α) :=
  separated "," List.isEmpty p

/-- Reads elements with `p`, each but the last followed by the operator `op`, and stops where the
operator is missing or the tokens ahead satisfy `stop`. -/
def joined {α : Type} (op : String) (stop : List Token → Bool) (p : Parse α) :
    Parse (List α) :=
  rounds do
    if stop (← ahead) then return .stop
    let a ← p
    if ← optPunct op then return .next a else return .last a

end Parse

end Calligraph
