import Calligraph.Grammar.Basic

/-!
# Rules for paths
-/

namespace Calligraph.Grammar

open Parse

variable (g : Grammar)

/-- A value among generic arguments: a literal, a name or a block. -/
def constArg : Parse ConstText := do
  let ts ← ahead
  if Ahead.literal ts then
    match ← literal with
    | some digits => return .digits digits
    | none => return .other
  else if Ahead.ident ts then return .names [← ident]
  else if Ahead.group ts .brace then
    let (attrs, body) ← g.attrBlock
    hold [(Expr.block body).withAttrs attrs]
    return .other
  else fail

def constAhead (ts : List Token) : Bool :=
  Ahead.literal ts || Ahead.group ts .brace

/-- The name that a type stands for before an equals sign or a colon. -/
def assocName : Ty → Option String
  | .path (.plain false [.plain n]) => some n
  | .path (.plain false [.angled n _]) => some n
  | _ => none

def genericArg : Parse GenericArg := do
  let ts ← ahead
  if Ahead.lifetime ts && !Ahead.punct ts.tail "+" then return .lifetime (← lifetime)
  else if constAhead ts then return .value (← g.constArg)
  else
    let ty ← g.ty true
    match assocName ty with
    | none => return .type ty
    | some n =>
      if ← optPunct "=" then
        if constAhead (← ahead) then return .assocValue n (← g.constArg)
        else return .assocType n (← g.ty true)
      else if ← optPunct ":" then
        let bounds ← joined "+" (fun ts => Ahead.punct ts "," || Ahead.punct ts ">")
          (g.bound false true)
        return .constraint n bounds
      else return .type ty

def angleArgs : Parse (List GenericArg) := do
  punct "<"
  let args ← separated "," (Ahead.punct · ">") g.genericArg
  punct ">"
  return args

/-- Whether generic arguments follow a name; in an expression they need `::`. -/
def angleAhead (inExpr : Bool) (ts : List Token) : Bool :=
  (!inExpr && Ahead.punct ts "<" && !Ahead.punct ts "<=" && !Ahead.punct ts "<<=") ||
    (Ahead.punct ts "::" && Ahead.punct (ts.drop 2) "<")

def segment (inExpr : Bool) : Parse Segment := do
  let ts ← ahead
  if ["super", "self", "crate", "try"].any (Ahead.word ts) then return .plain (← anyIdent)
  let n ← if Ahead.word ts "Self" then anyIdent else ident
  if angleAhead inExpr (← ahead) then
    discard (optPunct "::")
    return .angled n (← g.angleArgs)
  else return .plain n

/-- Another segment follows, and no parentheses. -/
def segmentAhead (ts : List Token) : Bool :=
  Ahead.punct ts "::" && !Ahead.group (ts.drop 2) .paren

def plainPath (inExpr : Bool) : Parse Path := do
  let rooted ← optPunct "::"
  let first ← g.segment inExpr
  let rest ← many segmentAhead do
    punct "::"
    g.segment inExpr
  return .plain rooted (first :: rest)

/-- A path, with a qualifying type if it starts with `<`. -/
def path (inExpr : Bool) : Parse Path := do
  if Ahead.punct (← ahead) "<" then
    punct "<"
    let self ← g.ty true
    let trait : List Segment ← do
      if ← optWord "as" then
        match ← g.plainPath false with
        | .plain _ segments => pure segments
        | .qualified _ trait rest => pure (trait ++ rest)
      else pure []
    punct ">"
    punct "::"
    let rest ← rounds do
      let s ← g.segment inExpr
      if ← optPunct "::" then return .next s else return .last s
    return .qualified self trait rest
  else g.plainPath inExpr

/-- The path has neither generic arguments nor a qualifying type. -/
def isModStyle : Path → Bool
  | .plain _ segments => segments.all fun | .plain _ => true | _ => false
  | .qualified .. => false

end Calligraph.Grammar
