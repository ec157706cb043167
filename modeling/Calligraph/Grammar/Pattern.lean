import Calligraph.Grammar.Type

/-!
# Rules for patterns

The expressions in a pattern are held in the order of the text.
-/

namespace Calligraph.Grammar

open Parse

variable (g : Grammar)

/-- The dots of a range: whether its end belongs to it. Three dots mean the same as `..=` if
`obsolete`. -/
def rangeLimits (obsolete : Bool) : Parse Bool := do
  let ts ← ahead
  if Ahead.punct ts "..=" then punct "..="; return true
  else if Ahead.punct ts "..." then
    if obsolete then punct "..."; return true else fail
  else punct ".."; return false

def alternativeAhead (ts : List Token) : Bool :=
  Ahead.punct ts "|" && !Ahead.punct ts "||" && !Ahead.punct ts "|="

/-- A pattern with alternatives. -/
def patterns : Parse Pattern := do
  let leading ← optPunct "|"
  let first ← g.pat
  let rest ← many alternativeAhead do
    punct "|"
    return (← g.pat).pat
  if leading || !rest.isEmpty then return { pat := .parts (first.pat :: rest) } else return first

def patternList : Parse (List Pat) :=
  commas do return (← g.patterns).pat

def rangeEndMissing (ts : List Token) : Bool :=
  ts.isEmpty || Ahead.punct ts "|" || Ahead.punct ts "=" ||
    (Ahead.punct ts ":" && !Ahead.punct ts "::") || Ahead.punct ts "," || Ahead.punct ts ";" ||
    Ahead.word ts "if"

def constBlock : Parse Expr := do
  word "const"
  let (attrs, body) ← g.attrBlock
  return (Expr.block body).withAttrs attrs

/-- A bound of a range, and whether there is one. -/
def rangeBound : Parse Bool := do
  let ts ← ahead
  if rangeEndMissing ts then return false
  else if Ahead.literal ts then
    discard literal
    return true
  else if Ahead.pathStart ts || Ahead.punct ts "<" || Ahead.word ts "Self" then
    discard (g.path true)
    return true
  else if Ahead.word ts "const" then
    hold [← g.constBlock]
    return true
  else fail

def restOfRange : Parse Pattern := do
  let dots ← here
  let closed ← rangeLimits true
  if ← g.rangeBound then return { pat := .blank }
  else if closed then fail
  else return { pat := .blank, openRange := some dots }

/-- A range without a start, or `..`. -/
def headlessRange : Parse Pattern := do
  let dots ← here
  let closed ← rangeLimits false
  if ← g.rangeBound then return { pat := .blank, openRange := some dots }
  else if closed then fail
  else return { pat := .blank, isRest := true }

/-- A field of a structure: a member and its pattern, or a name that is bound. -/
def fieldPattern : Parse Pat := do
  let boxed ← optWord "box"
  let byRef ← optWord "ref"
  let mutable ← optWord "mut"
  let marked := boxed || byRef || mutable
  let ts ← ahead
  let isName := Ahead.ident ts
  let n ← do
    if isName then ident
    else if marked then fail
    else
      match ts with
      | .literal (.int v false) _ :: rest =>
        if v < 0x100000000 then continueAt rest; pure "" else fail
      | _ => fail
  if (!marked && Ahead.punct (← ahead) ":") || !isName then
    punct ":"
    return (← g.patterns).pat
  else return if boxed then .blank else .name n none

/-- The fields of a structure, the last of which may be `..`. -/
def structFields : Parse (List Pat) :=
  rounds do
    if ← atEnd then return .stop
    hold (← g.outerAttrs)
    if ← optPunct ".." then return .stop
    let p ← g.fieldPattern
    if ← atEnd then return .last p
    punct ","
    return .next p

/-- A path, a macro call, a structure or a range. -/
def pathPattern : Parse Pattern := do
  let p ← g.path true
  let ts ← ahead
  if macroMark ts && isModStyle p then
    punct "!"
    let (_, args) ← g.macroCall
    hold args
    return { pat := .blank }
  else if Ahead.group ts .brace then
    return { pat := .parts (← group .brace g.structFields) }
  else if Ahead.group ts .paren then
    return { pat := .parts (← group .paren g.patternList) }
  else if Ahead.punct ts ".." then g.restOfRange
  else return { pat := .blank }

/-- A name that is bound, and the pattern after `@`. -/
def namePattern : Parse Pattern := do
  discard (optWord "ref")
  discard (optWord "mut")
  let n ← if Ahead.word (← ahead) "self" then anyIdent else ident
  if ← optPunct "@" then
    let sub ← g.pat
    return { pat := .name n (some sub.pat) }
  else return { pat := .name n none }

def parenPattern : Parse Pattern :=
  group .paren do
    if ← atEnd then return { pat := .parts [] }
    let first ← g.patterns
    if ← atEnd then
      return { pat := if first.isRest then .parts [first.pat] else .inner first.pat }
    punct ","
    return { pat := .parts (first.pat :: (← g.patternList)) }

/-- A slice, in which a range needs both bounds. -/
def slicePattern : Parse Pattern :=
  group .bracket do
    let pats ← commas do
      let p ← g.patterns
      match p.openRange with
      | some dots => failAt dots
      | none => return p.pat
    return { pat := .parts pats }

/-- A path starts here that a pattern cannot bind as a name. -/
def pathPatternAhead (ts : List Token) : Bool :=
  let second := ts.tail
  (Ahead.ident ts &&
    (Ahead.punct second "::" || Ahead.punct second "!" || Ahead.group second .brace ||
      Ahead.group second .paren || Ahead.punct second "..")) ||
    (Ahead.word ts "self" && Ahead.punct second "::") ||
    Ahead.punct ts "::" || Ahead.punct ts "<" || ["Self", "super", "crate"].any (Ahead.word ts)

def patternRule : Parse Pattern := do
  let ts ← ahead
  if pathPatternAhead ts then g.pathPattern
  else if Ahead.word ts "_" then
    skip 1
    return { pat := .blank }
  else if Ahead.word ts "box" then
    word "box"
    discard (alone g.pat)
    return { pat := .blank }
  else if Ahead.punct ts "-" || Ahead.literal ts || Ahead.word ts "const" then
    if ← g.rangeBound then
      if Ahead.punct (← ahead) ".." then g.restOfRange else return { pat := .blank }
    else fail
  else if ["ref", "mut", "self"].any (Ahead.word ts) || Ahead.ident ts then g.namePattern
  else if Ahead.punct ts "&" then
    punct "&"
    discard (optWord "mut")
    return { pat := .inner (← g.pat).pat }
  else if Ahead.group ts .paren then g.parenPattern
  else if Ahead.group ts .bracket then g.slicePattern
  else if Ahead.punct ts ".." && !Ahead.punct ts "..." then g.headlessRange
  else fail

end Calligraph.Grammar
