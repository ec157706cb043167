import Calligraph.Grammar.Input

/-!
# The rules that refer to each other

Types, patterns, expressions, blocks and items contain one another. A rule that needs another one
takes it from a `Grammar`, and the grammar is tied together once, level by level of nesting.
-/

namespace Calligraph

/-- The forms of an expression that the rules after it depend on. -/
inductive Shape where
  | plain
  /-- An integer, by its decimal digits. -/
  | int (digits : String)
  /-- A range; no operator may follow it. -/
  | range
  /-- A comparison; no second comparison may follow it. -/
  | comparison
  /-- A form that ends with its closing brace and needs no semicolon as a statement. -/
  | blockLike
  | bracedMacro
deriving Repr, DecidableEq, Inhabited

structure Operand where
  expr : Expr
  shape : Shape := .plain

/-- A pattern and what the rules around it depend on. -/
structure Pattern where
  pat : Pat
  /-- The place of the dots of a range without start or without end. -/
  openRange : Option Position := none
  /-- The pattern is `..`. -/
  isRest : Bool := false

/-- The rules that refer to each other. -/
structure Grammar where
  /-- A type, with bounds joined by plus signs if `plus`. -/
  ty : (plus : Bool) → Parse Ty
  /-- A bound, where `capture` and `const` say which special forms may stand. -/
  bound : (capture const : Bool) → Parse Bound
  /-- A pattern without alternatives. -/
  pat : Parse Pattern
  /-- An expression, in which a name before a brace starts a structure if `structs`. -/
  expr : (structs : Bool) → Parse Operand
  /-- An expression at the start of a statement or of an arm. -/
  early : Parse Operand
  unary : (structs : Bool) → Parse Operand
  /-- The operators from a precedence on that follow an operand. -/
  operators : (structs : Bool) → (base : Nat) → Operand → Parse Operand
  body : Parse (List Stmt)
  item : Parse Item
  /-- The tree of a `use`, or nothing where it starts at a crate root that no path names. -/
  useTree : (rooted : Bool) → Parse (Option UseTree)
  /-- The fields of a structure between braces. -/
  record : Parse Unit

namespace Grammar

open Parse

def empty : Grammar where
  ty _ := fail
  bound _ _ := fail
  pat := fail
  expr _ := fail
  early := fail
  unary _ := fail
  operators _ _ _ := fail
  body := fail
  item := fail
  useTree _ := fail
  record := fail

variable (g : Grammar)

def anyExpr : Parse Expr := do
  return (← alone (g.expr true)).expr

/-- Whether a name or a word for a place in the module tree comes next. -/
def modSegmentAhead (ts : List Token) : Bool :=
  Ahead.ident ts || ["super", "self", "Self", "crate"].any (Ahead.word ts)

def modPath : Parse (List String) := do
  discard (optPunct "::")
  rounds do
    if modSegmentAhead (← ahead) then
      let n ← anyIdent
      if ← optPunct "::" then return .next n else return .last n
    else fail

/-- The last token before the one at `stop`, or the last one at all if none is there. -/
def lastBefore (stop : Position) (ts : List Token) : Option Token :=
  (ts.takeWhile (·.pos != stop)).getLast?

/-! ### Attributes -/

/-- The inside of an attribute: the value after its name, if there is one. -/
def attrContent : Parse (Option Expr) := do
  if !(← optWord "unsafe") then discard modPath
  let ts ← ahead
  if [Delimiter.paren, .bracket, .brace].any (Ahead.group ts) then
    skip 1
    return none
  else if Ahead.punct ts "=" && !Ahead.punct ts "==" && !Ahead.punct ts "=>" then
    punct "="
    let ts ← ahead
    match Ahead.literal? ts with
    | some (_, []) =>
      continueAt []
      return some (.compound [])
    | _ =>
      if Ahead.punct ts "#" && Ahead.group ts.tail .bracket then fail
      return some (← g.anyExpr)
  else return none

def outerAttrs : Parse (List Expr) := do
  let found ← many (Ahead.punct · "#") do
    punct "#"
    group .bracket g.attrContent
  return found.filterMap id

def innerAttrs : Parse (List Expr) := do
  let found ← many (fun ts => Ahead.punct ts "#" && Ahead.punct ts.tail "!") do
    punct "#"
    punct "!"
    group .bracket g.attrContent
  return found.filterMap id

/-! ### Blocks and macro calls -/

def block : Parse (List Stmt) :=
  alone (group .brace g.body)

def attrBlock : Parse (List Expr × List Stmt) :=
  alone (group .brace do return (← g.innerAttrs, ← g.body))

/-- The expressions that the text of a macro call is a list of, and none if it is no such list. -/
def macroArgs (closed : Position) (tokens : List Token) : List Expr :=
  match commas g.anyExpr ⟨tokens, closed, none, []⟩ with
  | .ok (args, ⟨[], _, none, _⟩) => args
  | _ => []

/-- The delimiters and the arguments of a macro call after its mark. -/
def macroCall : Parse (Delimiter × List Expr) := do
  let (d, closed, tokens) ← anyGroup
  return (d, g.macroArgs closed tokens)

/-! ### Forms that the language keeps for itself -/

/-- A form that the language keeps for itself comes next. -/
def builtinAhead (ts : List Token) : Bool :=
  Ahead.word ts "builtin" && Ahead.punct ts.tail "#"

def builtin : Parse Unit := do
  word "builtin"
  punct "#"
  discard ident
  group .paren (continueAt [])

/-! ### Macro marks -/

def macroMark (ts : List Token) : Bool :=
  Ahead.punct ts "!" && !Ahead.punct ts "!="

end Grammar

end Calligraph
