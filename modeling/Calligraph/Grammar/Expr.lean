import Calligraph.Grammar.Operator
import Calligraph.Grammar.Pattern
import Calligraph.Token.Scan

/-!
# Rules for expressions
-/

namespace Calligraph.Grammar

open Parse

variable (g : Grammar)

/-- A form that only its parts count of. -/
def compound (parts : List Expr) : Operand :=
  { expr := .compound parts }

def blockLike (e : Expr) : Operand :=
  { expr := e, shape := .blockLike }

/-- An expression in which a name before a brace is no structure. -/
def condition : Parse Expr := do
  return (← alone (g.expr false)).expr

/-! ### Operators -/

def rightOperand (structs : Bool) (precedence : Nat) : Parse Operand := do
  let first ← g.unary structs
  extend (← ahead) first
where
  /-- Takes in the operators that bind tighter. Each round reads a token of `fuel`. -/
  extend : List Token → Operand → Parse Operand
    | [], right => return right
    | _ :: fuel, right => do
      let before ← here
      let next := Precedence.next (← ahead)
      if precedence < next || (next == precedence && precedence == Precedence.assign) then
        let right ← g.operators structs next right
        if (← here) == before then return right else extend fuel right
      else return right

/-- A range ends after its dots. -/
def rangeStops (structs : Bool) (ts : List Token) : Bool :=
  ts.isEmpty || Ahead.punct ts "," || Ahead.punct ts ";" ||
    (Ahead.punct ts "." && !Ahead.punct ts "..") || Ahead.punct ts "?" || Ahead.punct ts "=>" ||
    (!structs && Ahead.group ts .brace) ||
    ["=", "+", "/", "%", "^", ">", "<=", "!=", "-=", "*=", "&=", "|=", "<<="].any
      (Ahead.punct ts) ||
    Ahead.word ts "as"

def rangeTail (structs : Bool) : Parse (Option Expr) := do
  let closed ← rangeLimits false
  if !closed && rangeStops structs (← ahead) then return none
  else return some (← g.rightOperand structs Precedence.range).expr

/-- What cannot follow a cast. -/
def castEnds : Parse Unit := do
  let ts ← ahead
  if (Ahead.punct ts "." && !Ahead.punct ts "..") || Ahead.punct ts "?" ||
      Ahead.group ts .bracket || Ahead.group ts .paren then fail

/-- One operator after `left`, or nothing if none of the precedence `base` follows. -/
def operatorStep (structs : Bool) (base : Nat) (left : Operand) : Parse (Option Operand) := do
  let ts ← ahead
  if left.shape = .range then return none
  match Precedence.operator? ts with
  | some (op, precedence) =>
    if precedence < base then return none
    if precedence = Precedence.compare && left.shape = .comparison then fail
    punct op
    let right ← g.rightOperand structs precedence
    return some
      { expr := .binary left.expr right.expr
        shape := if precedence = Precedence.compare then .comparison else .plain }
  | none =>
    if base ≤ Precedence.assign && Precedence.assignAhead ts then
      punct "="
      let right ← g.rightOperand structs Precedence.assign
      return some { expr := .binary left.expr right.expr }
    else if base ≤ Precedence.range && Ahead.punct ts ".." then
      let stop ← g.rangeTail structs
      return some { expr := .compound (left.expr :: stop.toList), shape := .range }
    else if base ≤ Precedence.cast && Ahead.word ts "as" then
      word "as"
      let (ty, held) ← holding (g.ty false)
      castEnds
      return some { expr := .cast left.expr ty held }
    else return none

/-- The operators of precedence `base` or tighter that follow `left`. -/
def operatorsRule (structs : Bool) (base : Nat) (left : Operand) : Parse Operand := do
  extend (← ahead) left
where
  /-- Takes in one operator after the other. Each of them is a token of `fuel` or more. -/
  extend : List Token → Operand → Parse Operand
    | [], left => return left
    | _ :: fuel, left => do
      match ← g.operatorStep structs base left with
      | some left => extend fuel left
      | none => return left

def exprRule (structs : Bool) : Parse Operand := do
  let left ← g.unary structs
  g.operators structs Precedence.lowest left

/-! ### Members and trailers -/

/-- The members that a number with points names, of which a last point may be left over. -/
def floatMembers (text : String) : Option Bool :=
  let parts := text.splitOn "."
  let (parts, trailing) :=
    match parts.getLast? with
    | some "" => (parts.dropLast, true)
    | _ => (parts, false)
  let isIndex (s : String) : Bool :=
    match s.toList with
    | [] => false
    | cs =>
      match Scan.integer cs, Scan.literalValue cs with
      | some [], .int v false => v < 0x100000000
      | _, _ => false
  if parts.all isIndex then some trailing else none

/-- Reads a member: a name with its place, or a number. -/
def member : Parse (Option (String × Position)) := do
  let pos ← here
  match ← ahead with
  | .literal (.int v suffixed) _ :: ts =>
    if !suffixed && v < 0x100000000 then continueAt ts; return none else fail
  | _ => return some (← ident, pos)

def callArgs : Parse (List Expr) :=
  group .paren (commas g.anyExpr)

def memberTrailer (e : Operand) : Parse Operand := do
  if ← optWord "await" then return compound [e.expr]
  match ← member with
  | none => return compound [e.expr]
  | some (name, pos) =>
    if Ahead.punct (← ahead) "::" then
      punct "::"
      let (_, held) ← holding g.angleArgs
      return { expr := .method pos [] e.expr name (held ++ (← g.callArgs)) }
    else if Ahead.group (← ahead) .paren then
      return { expr := .method pos [] e.expr name (← g.callArgs) }
    else return compound [e.expr]

def dotTrailer (e : Operand) : Parse Operand := do
  match ← ahead with
  | .literal (.float text) _ :: ts =>
    match floatMembers text with
    | none => fail
    | some false => continueAt ts; return compound [e.expr]
    | some true => continueAt ts; g.memberTrailer (compound [e.expr])
  | _ => g.memberTrailer e

/-- One call, member, index or question mark after `e`, which starts at `start`. -/
def trailer (start : Position) (e : Operand) : Parse (Option Operand) := do
  let ts ← ahead
  if Ahead.group ts .paren then
    return some { expr := .call start [] e.expr (← g.callArgs) }
  else if Ahead.punct ts "." && !Ahead.punct ts ".." && e.shape != .range then
    punct "."
    return some (← g.dotTrailer e)
  else if Ahead.group ts .bracket then
    let index ← group .bracket g.anyExpr
    return some (compound [e.expr, index])
  else if Ahead.punct ts "?" && e.shape != .range then
    punct "?"
    return some (compound [e.expr])
  else return none

def trailers (start : Position) (e : Operand) : Parse Operand := do
  extend (← ahead) e
where
  /-- Takes in one of them after the other. Each of them is a token of `fuel` or more. -/
  extend : List Token → Operand → Parse Operand
    | [], e => return e
    | _ :: fuel, e => do
      match ← g.trailer start e with
      | some e => extend fuel e
      | none => return e

/-! ### Forms with a block -/

/-- A loop, a block or an `unsafe` block after its first words. -/
def braced : Parse Operand := do
  let (attrs, body) ← g.attrBlock
  return blockLike ((Expr.block body).withAttrs attrs)

def whileExpr : Parse Operand := do
  word "while"
  let cond ← g.condition
  let (_, body) ← g.attrBlock
  return blockLike (.whileLoop cond body)

def forExpr : Parse Operand := do
  word "for"
  let p ← alone g.patterns
  word "in"
  let subject ← g.condition
  let (_, body) ← g.attrBlock
  return blockLike (.forLoop p.pat subject body)

def ifExpr : Parse Operand := do
  let clauses ← rounds do
    word "if"
    let cond ← g.condition
    let body ← g.block
    let clause (otherwise : Option Expr) : Expr := .branch cond body otherwise
    if ← optWord "else" then
      let ts ← ahead
      if Ahead.word ts "if" then return .next clause
      else if Ahead.group ts .brace then
        let last := clause (some (.block (← g.block)))
        return .last fun _ => last
      else fail
    else return .last clause
  match clauses.foldr (fun clause rest => some (clause rest)) none with
  | some e => return blockLike e
  | none => fail

def arm : Parse Arm := do
  let attrs ← g.outerAttrs
  let (p, held) ← holding g.patterns
  let guard ← do
    if ← optWord "if" then pure [← g.anyExpr] else pure []
  punct "=>"
  let body ← alone g.early
  if body.shape != .blockLike && !(← atEnd) then punct ","
  else discard (optPunct ",")
  return .mk p.pat (attrs ++ held ++ guard) body.expr

def matchExpr : Parse Operand := do
  word "match"
  let subject ← g.condition
  let (attrs, arms) ← group .brace do return (← g.innerAttrs, ← manyToEnd g.arm)
  return blockLike ((Expr.select subject arms).withAttrs attrs)

def labelled : Parse Operand := do
  discard lifetime
  punct ":"
  let ts ← ahead
  if Ahead.word ts "while" then g.whileExpr
  else if Ahead.word ts "for" then g.forExpr
  else if Ahead.word ts "loop" then word "loop"; g.braced
  else if Ahead.group ts .brace then g.braced
  else fail

/-! ### Atoms -/

def exprAhead (ts : List Token) : Bool :=
  (Ahead.anyIdent ts && !Ahead.word ts "as") ||
    [Delimiter.paren, .bracket, .brace].any (Ahead.group ts) || Ahead.literal ts ||
    (Ahead.punct ts "!" && !Ahead.punct ts "!=") ||
    (Ahead.punct ts "-" && !Ahead.punct ts "-=" && !Ahead.punct ts "->") ||
    (Ahead.punct ts "*" && !Ahead.punct ts "*=") ||
    (Ahead.punct ts "|" && !Ahead.punct ts "|=") ||
    (Ahead.punct ts "&" && !Ahead.punct ts "&=") ||
    Ahead.punct ts ".." ||
    (Ahead.punct ts "<" && !Ahead.punct ts "<=" && !Ahead.punct ts "<<=") ||
    Ahead.punct ts "::" || Ahead.lifetime ts || Ahead.punct ts "#"

/-- The operand of `return` and `yield`, if there is one. -/
def optExpr : Parse (List Expr) := do
  if exprAhead (← ahead) then return [← g.anyExpr] else return []

def breakExpr (structs : Bool) : Parse Operand := do
  word "break"
  let ts ← ahead
  if Ahead.lifetime ts && Ahead.punct ts.tail ":" then
    -- a labelled loop needs parentheses here
    let start ← here
    discard g.anyExpr
    failAt start
  discard optLifetime
  let ts ← ahead
  if exprAhead ts && (structs || !Ahead.group ts .brace) then
    return compound [← g.anyExpr]
  else return compound []

def closureParam : Parse Pat := do
  discard g.outerAttrs
  let p ← g.pat
  if ← optPunct ":" then return .typed p.pat (← g.ty true) else return p.pat

def closureExpr (structs : Bool) : Parse Operand := do
  let params ← alone do
    discard g.optBinder
    for w in ["const", "static", "async", "move"] do discard (optWord w)
    punct "|"
    let params ← separated "," (Ahead.punct · "|") g.closureParam
    punct "|"
    return params
  if Ahead.punct (← ahead) "->" then
    punct "->"
    discard (alone (g.ty true))
    return { expr := .closure params (.block (← g.block)) }
  else
    let body ← alone (g.expr structs)
    return { expr := .closure params body.expr }

def closureAhead (ts : List Token) : Bool :=
  let second := ts.tail
  Ahead.punct ts "|" || Ahead.word ts "move" ||
    (Ahead.word ts "for" && genericsAhead second) ||
    (Ahead.word ts "const" && !Ahead.group second .brace) || Ahead.word ts "static" ||
    (Ahead.word ts "async" && (Ahead.punct second "|" || Ahead.word second "move"))

/-- The value of a field; a lone name stands for itself. -/
def fieldValue : Parse (List Expr) := do
  let attrs ← g.outerAttrs
  match ← member with
  | none =>
    punct ":"
    return attrs ++ [← g.anyExpr]
  | some (name, _) =>
    if ← optPunct ":" then return attrs ++ [← g.anyExpr]
    else return attrs ++ [.path (.ofName name) []]

def structParts : Parse (List Expr) := do
  let fields ← rounds do
    if ← atEnd then return .stop
    if Ahead.punct (← ahead) ".." then return .stop
    let e ← g.fieldValue
    if ← atEnd then return .last e
    punct ","
    return .next e
  let base ← do
    if ← optPunct ".." then
      if ← atEnd then pure [] else pure [← g.anyExpr]
    else pure []
  return fields.flatten ++ base

def pathExpr (structs : Bool) : Parse Operand := do
  let (p, held) ← holding (g.path true)
  let ts ← ahead
  if macroMark ts && isModStyle p then
    punct "!"
    let (d, args) ← g.macroCall
    return { expr := .compound args, shape := if d = .brace then .bracedMacro else .plain }
  else if structs && Ahead.group ts .brace then
    return { expr := .construct p (held ++ (← group .brace g.structParts)) }
  else return { expr := .path p held }

def parenExpr : Parse Operand :=
  group .paren do
    if ← atEnd then return compound []
    let first ← g.anyExpr
    if ← atEnd then return { expr := .paren first }
    punct ","
    return compound (first :: (← commas g.anyExpr))

/-- An array, by its elements or by one element and its length. -/
def arrayExpr : Parse Operand :=
  group .bracket do
    if ← atEnd then return compound []
    let first ← g.anyExpr
    if ← atEnd then return compound [first]
    if ← optPunct "," then return compound (first :: (← commas g.anyExpr))
    else if ← optPunct ";" then return compound [first, ← g.anyExpr]
    else fail

def letExpr (structs : Bool) : Parse Operand := do
  word "let"
  let p ← alone g.patterns
  punct "="
  let left ← g.unary structs
  let e ← g.operators structs Precedence.compare left
  return { expr := .letIn p.pat e.expr }

/-- One of the words that a path starts with comes next, and no other form. -/
def pathExprAhead (ts : List Token) : Bool :=
  Ahead.pathStart ts || Ahead.punct ts "<" || Ahead.word ts "Self" ||
    (Ahead.word ts "try" && (Ahead.punct ts.tail "!" || Ahead.punct ts.tail "::"))

/-- An expression without operators and without what follows it. -/
def atom (structs : Bool) : Parse Operand := do
  let ts ← ahead
  let second := ts.tail
  if Ahead.literal ts then
    match ← literal with
    | some digits => return { expr := .compound [], shape := .int digits }
    | none => return compound []
  else if Ahead.word ts "async" && (Ahead.group second .brace ||
      (Ahead.word second "move" && Ahead.group second.tail .brace)) then
    word "async"
    discard (optWord "move")
    return { expr := .block (← g.block) }
  else if Ahead.word ts "try" && Ahead.group second .brace then
    word "try"
    return blockLike (.block (← g.block))
  else if closureAhead ts then g.closureExpr structs
  else if builtinAhead ts then
    builtin
    return { expr := .silent }
  else if pathExprAhead ts then g.pathExpr structs
  else if Ahead.group ts .paren then g.parenExpr
  else if Ahead.word ts "break" then g.breakExpr structs
  else if Ahead.word ts "continue" then
    word "continue"
    discard optLifetime
    return compound []
  else if Ahead.word ts "return" || Ahead.word ts "yield" then
    skip 1
    return compound (← g.optExpr)
  else if Ahead.word ts "become" then
    word "become"
    discard g.anyExpr
    return { expr := .silent }
  else if Ahead.group ts .bracket then g.arrayExpr
  else if Ahead.word ts "let" then g.letExpr structs
  else if Ahead.word ts "if" then g.ifExpr
  else if Ahead.word ts "while" then g.whileExpr
  else if Ahead.word ts "for" then g.forExpr
  else if Ahead.word ts "loop" then word "loop"; g.braced
  else if Ahead.word ts "match" then g.matchExpr
  else if Ahead.word ts "unsafe" || Ahead.word ts "const" then skip 1; g.braced
  else if Ahead.group ts .brace then g.braced
  else if Ahead.punct ts ".." then
    let stop ← g.rangeTail structs
    return { expr := .compound (stop.toList), shape := .range }
  else if Ahead.word ts "_" then
    skip 1
    return compound []
  else if Ahead.lifetime ts then g.labelled
  else fail

def unaryRule (structs : Bool) : Parse Operand := do
  let before ← here
  let attrs ← g.outerAttrs
  let ts ← ahead
  if Ahead.punct ts "&" then
    punct "&"
    let ts ← ahead
    let raw := Ahead.word ts "raw" && (Ahead.word ts.tail "mut" || Ahead.word ts.tail "const")
    if raw then skip 2 else discard (optWord "mut")
    let e ← g.unary structs
    let whole : Expr := if raw then .compound [e.expr] else .borrow e.expr
    return { expr := whole.withAttrs attrs }
  else if Ahead.punct ts "*" then
    punct "*"
    let e ← g.unary structs
    return { expr := (Expr.borrow e.expr).withAttrs attrs }
  else if Ahead.punct ts "!" || Ahead.punct ts "-" then
    skip 1
    let e ← g.unary structs
    return { expr := (Expr.compound [e.expr]).withAttrs attrs }
  else
    let start ← here
    let e ← g.atom structs
    let e ← g.trailers start e
    if before != start && e.shape = .range then failAt start
    return { e with expr := e.expr.withAttrs attrs }

def blockLikeAhead (ts : List Token) : Bool :=
  let second := ts.tail
  ["if", "while", "loop", "match", "unsafe"].any (Ahead.word ts) ||
    (Ahead.word ts "for" && !genericsAhead second) ||
    ((Ahead.word ts "try" || Ahead.word ts "const") && Ahead.group second .brace) ||
    Ahead.group ts .brace || Ahead.lifetime ts

/-- An expression at the start of a statement or of an arm: a form that ends with its block is only
followed by members and question marks. -/
def earlyRule : Parse Operand := do
  let attrs ← g.outerAttrs
  let start ← here
  let e ← if blockLikeAhead (← ahead) then g.atom true else g.unary true
  let ts ← ahead
  let attach (e : Operand) : Operand := { e with expr := e.expr.withAttrs attrs }
  if e.shape != .blockLike then g.operators true Precedence.lowest (attach e)
  else if (Ahead.punct ts "." && !Ahead.punct ts "..") || Ahead.punct ts "?" then
    let e ← g.trailers start e
    g.operators true Precedence.lowest (attach e)
  else return attach e

end Calligraph.Grammar
