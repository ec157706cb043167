import Calligraph.Grammar.Expr

/-!
# Rules for statements
-/

namespace Calligraph.Grammar

open Parse

variable (g : Grammar)

/-- `let pat: ty = init else otherwise;` -/
def letStmt : Parse Stmt := do
  word "let"
  let pat ← alone do
    let p ← g.pat
    if ← optPunct ":" then return Pat.typed p.pat (← g.ty true) else return p.pat
  if ← optPunct "=" then
    let before ← ahead
    let init ← g.anyExpr
    let braced := (lastBefore (← here) before).any (Token.isGroup .brace)
    let diverges ← if braced then pure false else optWord "else"
    let otherwise ← if diverges then some <$> Expr.block <$> g.block else pure none
    punct ";"
    return .bind pat (some init) otherwise
  else
    punct ";"
    return .bind pat none none

def itemAhead (ts : List Token) : Bool :=
  let second := ts.tail
  let third := ts.drop 2
  let words (ts : List Token) (ws : List String) : Bool := ws.any (Ahead.word ts)
  words ts ["pub", "extern", "use", "fn", "mod", "type", "struct", "enum", "trait", "impl",
      "macro"] ||
    (Ahead.word ts "crate" && !Ahead.punct second "::") ||
    (Ahead.word ts "static" && (Ahead.word second "mut" ||
      (Ahead.ident second && !(Ahead.word second "async" &&
        (Ahead.word third "move" || Ahead.punct third "|"))))) ||
    (Ahead.word ts "const" && !(Ahead.group second .brace || Ahead.word second "static" ||
      (Ahead.word second "async" && !words third ["unsafe", "extern", "fn"]) ||
      Ahead.word second "move" || Ahead.punct second "|")) ||
    (Ahead.word ts "unsafe" && !Ahead.group second .brace) ||
    (Ahead.word ts "async" && words second ["unsafe", "extern", "fn"]) ||
    (Ahead.word ts "union" && Ahead.ident second) ||
    (Ahead.word ts "auto" && Ahead.word second "trait") ||
    (Ahead.word ts "default" && words second ["unsafe", "impl"])

/-- A macro call at the start of a statement. -/
inductive MacroStart where
  /-- It defines something, so it is an item. -/
  | item
  /-- It stands between braces and nothing continues it; `rest` starts at its mark. -/
  | braced (rest : List Token)
  | none

def macroStart : Parse MacroStart := fun i =>
  let found : MacroStart :=
    match modPath i with
    | .error _ => .none
    | .ok (_, j) =>
      let ts := j.tokens
      let second := ts.tail
      let third := ts.drop 2
      if !Ahead.punct ts "!" then .none
      else if Ahead.ident second || Ahead.word second "try" then .item
      else if Ahead.group second .brace &&
          !((Ahead.punct third "." && !Ahead.punct third "..") || Ahead.punct third "?") then
        .braced ts
      else .none
  .ok (found, i)

/-- An expression as a statement, and whether a semicolon must follow it. -/
def exprStmt (attrs : List Expr) : Parse (Stmt × Bool) := do
  let e ← alone g.early
  let whole := e.expr.withLeftAttrs attrs
  if ← optPunct ";" then return (.expr whole, false)
  else return (.expr whole, e.shape != .blockLike && e.shape != .bracedMacro)

/-- A statement, and whether another one may not follow it. -/
def stmt : Parse (Stmt × Bool) := do
  let start ← get
  let attrs ← g.outerAttrs
  let ts ← ahead
  match ← macroStart with
  | .braced rest =>
    continueAt rest
    punct "!"
    let (_, args) ← g.macroCall
    discard (optPunct ";")
    return (.expr ((Expr.compound args).withAttrs attrs), false)
  | found =>
    if Ahead.word ts "let" then return (← g.letStmt, false)
    else if itemAhead ts || (found matches .item) then
      set start
      return (.item (← g.item), false)
    else g.exprStmt attrs

def bodyRule : Parse (List Stmt) :=
  rounds do
    discard (many (Ahead.punct · ";") (punct ";"))
    if ← atEnd then return .stop
    let (s, ends) ← g.stmt
    if ← atEnd then return .last s
    if ends then fail
    return .next s

end Calligraph.Grammar
