import Calligraph.Grammar.Path

/-!
# Rules for bounds and generic parameters
-/

namespace Calligraph.Grammar

open Parse

variable (g : Grammar)

/-- A generic parameter: its name, and its bounds if it is a type. -/
def genericParam : Parse (String × Option (List Bound)) := do
  hold (← g.outerAttrs)
  let ts ← ahead
  if Ahead.lifetime ts then
    let n ← lifetime
    if ← optPunct ":" then
      discard (joined "+"
        (fun ts => ts.isEmpty || Ahead.punct ts "," || Ahead.punct ts ">") lifetime)
    return (n, none)
  else if Ahead.ident ts then
    let n ← ident
    let bounds ← do
      if ← optPunct ":" then
        joined "+" (fun ts => ts.isEmpty || [",", ">", "="].any (Ahead.punct ts))
          (g.bound false true)
      else pure []
    if ← optPunct "=" then discard (g.ty true)
    return (n, some bounds)
  else if Ahead.word ts "const" then
    word "const"
    let n ← ident
    punct ":"
    discard (g.ty true)
    if ← optPunct "=" then discard g.constArg
    return (n, none)
  else fail

/-- `for<params>`, by the names of the parameters. -/
def binder : Parse (List String) := do
  word "for"
  punct "<"
  let params ← separated "," (Ahead.punct · ">") g.genericParam
  punct ">"
  return params.map Prod.fst

def optBinder : Parse (Option (List String)) := do
  if Ahead.word (← ahead) "for" then return some (← g.binder) else return none

def capture : Parse (List String) := do
  word "use"
  punct "<"
  let names ← separated "," (Ahead.punct · ">") do
    let ts ← ahead
    if Ahead.lifetime ts then lifetime
    else if Ahead.ident ts || Ahead.word ts "Self" then anyIdent
    else fail
  punct ">"
  return names

/-- `-> ty`, with bounds joined by plus signs if `plus`. -/
def output (plus : Bool) : Parse (Option Ty) := do
  if ← optPunct "->" then return some (← g.ty plus) else return none

/-- The segments with the inputs and output of a function in place of the last one's arguments. -/
def withArrow (inputs : List Ty) (output : Option Ty) : List Segment → List Segment
  | [] => []
  | [s] => [.arrow s.name inputs output]
  | s :: t :: rest => s :: withArrow inputs output (t :: rest)

/-- The last segment has no generic arguments. -/
def endsBare (segments : List Segment) : Bool :=
  match segments.getLast? with
  | some (.plain _) => true
  | some (.angled _ args) => args.isEmpty
  | _ => false

/-- The path of a trait, with the inputs and output of a function if they follow. -/
def traitPath : Parse Path := do
  let p ← g.plainPath false
  let ts ← ahead
  match p with
  | .plain rooted segments =>
    if endsBare segments &&
        (Ahead.group ts .paren || (Ahead.punct ts "::" && Ahead.group (ts.drop 2) .paren)) then
      discard (optPunct "::")
      let inputs ← group .paren (commas (g.ty true))
      return .plain rooted (withArrow inputs (← g.output false) segments)
    else return p
  | p => return p

/-- A trait as a bound. A `const` in front of it makes it say nothing. -/
def traitBound (const : Bool) : Parse Bound := do
  let binder ← g.optBinder
  let start ← here
  let ts ← ahead
  let conditional := Ahead.group ts .bracket
  let unconditional := Ahead.word ts "const"
  if conditional then group .bracket (word "const")
  if unconditional then word "const"
  if (conditional || unconditional) && !const then failAt start
  let mark ← here
  let maybe ← optPunct "?"
  let binder ← if binder.isNone && maybe then g.optBinder else pure binder
  let p ← g.traitPath
  if binder.isSome && maybe then failAt mark
  if conditional || unconditional then return .silent
  return .trait maybe (binder.getD []) p

def boundRule (capture const : Bool) : Parse Bound := do
  let ts ← ahead
  if Ahead.lifetime ts then return .lifetime (← lifetime)
  else if Ahead.word ts "use" then
    let start ← here
    let names ← Grammar.capture
    if capture then return .capture names else failAt start
  else
    aloneIf (· matches .silent) do
      if Ahead.group ts .paren then group .paren (g.traitBound const) else g.traitBound const

/-- Whether another bound can follow a plus sign. -/
def boundAhead (const : Bool) (ts : List Token) : Bool :=
  Ahead.anyIdent ts || Ahead.punct ts "::" || Ahead.punct ts "?" || Ahead.lifetime ts ||
    Ahead.group ts .paren || (const && (Ahead.group ts .bracket || Ahead.word ts "const"))

/-- One bound, or several joined by plus signs if `plus`. -/
def bounds (plus capture const : Bool) : Parse (List Bound) :=
  rounds do
    let b ← g.bound capture const
    if !plus then return .last b
    else if ← optPunct "+" then
      if boundAhead const (← ahead) then return .next b else return .last b
    else return .last b

/-- The generic parameters in angle brackets if they come next, and whether they do. -/
def generics : Parse (Bool × List (String × List Bound)) := do
  if !Ahead.punct (← ahead) "<" then return (false, [])
  punct "<"
  let params ← separated "," (Ahead.punct · ">") do
    let attrs ← g.outerAttrs
    hold attrs
    if Ahead.word (← ahead) "_" then return (← anyIdent, some [])
    g.genericParam
  punct ">"
  return (true, params.filterMap fun (n, bounds) => bounds.map fun bounds => (n, bounds))

/-- Whether an angle bracket opens generic parameters, and not a qualified path. -/
def genericsAhead (ts : List Token) : Bool :=
  let second := ts.tail
  let third := ts.drop 2
  Ahead.punct ts "<" &&
    (Ahead.punct second ">" || Ahead.punct second "#" ||
      ((Ahead.lifetime second || Ahead.ident second) &&
        (Ahead.punct third ">" || Ahead.punct third "," ||
          (Ahead.punct third ":" && !Ahead.punct third "::") || Ahead.punct third "=")) ||
      Ahead.word second "const")

/-- A `where` clause or a predicate of it ends here. -/
def predicatesEnd (ts : List Token) : Bool :=
  ts.isEmpty || Ahead.group ts .brace || Ahead.punct ts "," || Ahead.punct ts ";" ||
    (Ahead.punct ts ":" && !Ahead.punct ts "::") || Ahead.punct ts "="

def predicate : Parse (Option (Ty × List Bound)) := do
  let ts ← ahead
  if Ahead.lifetime ts && Ahead.punct ts.tail ":" then
    discard lifetime
    punct ":"
    discard (joined "+" (fun ts => predicatesEnd ts || Ahead.punct ts ":") lifetime)
    return none
  else
    discard g.optBinder
    let ty ← g.ty true
    punct ":"
    return some (ty, ← joined "+" predicatesEnd (g.bound false true))

/-- A `where` clause if one comes next, and whether it does. -/
def whereClause : Parse (Bool × List (Ty × List Bound)) := do
  if !Ahead.word (← ahead) "where" then return (false, [])
  word "where"
  if genericsAhead (← ahead) then fail
  let found ← joined "," predicatesEnd g.predicate
  return (true, found.filterMap id)

end Calligraph.Grammar
