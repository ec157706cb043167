import Calligraph.Grammar.Generics

/-!
# Rules for types
-/

namespace Calligraph.Grammar

open Parse

variable (g : Grammar)

/-- `extern` and a text that may follow it, if they come next. -/
def optAbi : Parse Unit := do
  if ← optWord "extern" then
    if Ahead.text (← ahead) then skip 1

/-- Bounds of which one must be a trait; otherwise the failure is at `start`. -/
def objectBounds (start : Position) (plus : Bool) : Parse (List Bound) := do
  let bs ← g.bounds plus false false
  if bs.any fun | .trait .. => true | _ => false then return bs else failAt start

/-- A sum of bounds without a word in front of it. -/
def bareObject (plus : Bool) : Parse Ty := do
  let start ← here
  discard (optWord "dyn")
  return .dynTrait (← g.objectBounds start plus)

def furtherBounds : Parse (List Bound) :=
  many (Ahead.punct · "+") do
    punct "+"
    g.bound false false

/-- The bounds that follow a path after plus signs; the last plus sign may stand alone. -/
def trailingBounds : Parse (List Bound) :=
  rounds do
    if ← optPunct "+" then
      if boundAhead false (← ahead) then return .next (← g.bound false false)
    return .stop

/-- A parameter of a function type, or its dots, which have no type. The first one may be named
`self`, which is accepted in any form. -/
def functionParam (first : Bool) : Parse (Option Ty) := do
  hold (← g.outerAttrs)
  let ts ← ahead
  let named := (Ahead.ident ts || Ahead.word ts "_") && Ahead.punct ts.tail ":"
  if Ahead.punct ts "..." || (named && Ahead.punct (ts.drop 2) "...") then
    if named then skip 2
    punct "..."
    return none
  else
    let mutSelf := first && Ahead.word ts "mut" && Ahead.word ts.tail "self"
    if mutSelf then word "mut"
    let ts ← ahead
    let isNamed := (Ahead.ident ts || Ahead.word ts "_" || (first && Ahead.word ts "self")) &&
      Ahead.punct ts.tail ":" && !Ahead.punct ts.tail "::"
    if isNamed then skip 2
    if mutSelf && !isNamed then
      word "self"
      return some .silent
    else if first && !(isNamed && Ahead.word ts "self") &&
        Ahead.word (← ahead) "mut" && Ahead.word (← ahead).tail "self" then
      word "mut"
      word "self"
      return some .silent
    else if mutSelf then
      discard (alone (g.ty true))
      return some .silent
    else return some (← g.ty true)

/-- The parameters of a function type; the dots may only stand last. -/
def functionParams : Parse (List Ty) := do
  let first ← here
  rounds do
    if ← atEnd then return .stop
    match ← g.functionParam ((← here) == first) with
    | none =>
      discard (optPunct ",")
      return .stop
    | some ty =>
      if ← atEnd then return .last ty
      punct ","
      return .next ty

def functionType (binder : List String) : Parse Ty := do
  discard (optWord "unsafe")
  optAbi
  word "fn"
  groupThen .paren g.functionParams fun params =>
    return .function binder params (← g.output false)

/-- The bound that a type between parentheses stands for before a plus sign. -/
def asBound : Ty → Option Bound
  | .path (.plain rooted segments) => some (.trait false [] (.plain rooted segments))
  | _ => none

/-- What stands between parentheses: a tuple, a type, or the first bound of an object. -/
inductive Parenthesized where
  | done (ty : Ty)
  | relaxed (bound : Bound)
  | single (ty : Ty) (object : Option Bound)

def parenContent : Parse Parenthesized := do
  let ts ← ahead
  if ts.isEmpty then return .done (.tuple [])
  else if Ahead.lifetime ts then return .done (.paren (← g.bareObject true))
  else if Ahead.punct ts "?" then return .relaxed (← g.traitBound false)
  else
    let ty ← g.ty true
    if Ahead.punct (← ahead) "," then
      punct ","
      return .done (.tuple (ty :: (← commas (g.ty true))))
    else
      match asBound ty with
      | some b => return .single ty (some b)
      | none =>
        -- an object of one bound, with no `dyn` and no final plus, stands for that bound
        let marked := Ahead.word ts "dyn" || Ahead.punct (lastBefore (← here) ts).toList "+"
        match ty, marked with
        | .dynTrait [b], false => return .single ty (some b)
        | _, _ => return .single ty none

def parenType (plus : Bool) : Parse Ty :=
  groupThen .paren g.parenContent fun
    | .done ty => return ty
    | .relaxed b => return .dynTrait (b :: (← g.furtherBounds))
    | .single ty object => do
      match object, plus && Ahead.punct (← ahead) "+" with
      | some b, true => return .dynTrait (b :: (← g.furtherBounds))
      | _, _ => return .paren ty

/-- A path as a type, a macro call, or an object that starts with a path. -/
def pathType (plus : Bool) (binder : Option (List String)) : Parse Ty := do
  let p ← g.path false
  let ts ← ahead
  match p with
  | .qualified .. => return .path p
  | .plain .. =>
    if macroMark ts && isModStyle p then
      punct "!"
      let (_, args) ← g.macroCall
      hold args
      return .expansion p.names
    else if binder.isSome || (plus && Ahead.punct ts "+") then
      let rest ← if plus then g.trailingBounds else pure []
      return .dynTrait (.trait false (binder.getD []) p :: rest)
    else return .path p

def bracketType : Parse Ty :=
  group .bracket do
    let ty ← g.ty true
    if ← optPunct ";" then
      let length ← alone (g.expr true)
      hold [length.expr]
      match length.shape with
      | .int digits => return .array ty (.digits digits)
      | _ => return .array ty length.expr.constText
    else return .slice ty

def functionTypeAhead (ts : List Token) : Bool :=
  ["fn", "unsafe", "extern"].any (Ahead.word ts)

def pathTypeAhead (ts : List Token) : Bool :=
  Ahead.ident ts || ["super", "self", "Self", "crate"].any (Ahead.word ts)

def typeRule (plus : Bool) : Parse Ty := do
  let binder ← g.optBinder
  let ts ← ahead
  if binder.isSome && !(pathTypeAhead ts || functionTypeAhead ts) then fail
  if Ahead.group ts .paren then g.parenType plus
  else if functionTypeAhead ts then g.functionType (binder.getD [])
  else if builtinAhead ts then
    builtin
    return .silent
  else if pathTypeAhead ts || Ahead.punct ts "::" || Ahead.punct ts "<" then
    g.pathType plus binder
  else if Ahead.word ts "dyn" then
    let start ← here
    word "dyn"
    if ← optPunct "*" then
      discard (alone (g.objectBounds start plus))
      return .silent
    else return .dynTrait (← g.objectBounds start plus)
  else if Ahead.group ts .bracket then g.bracketType
  else if Ahead.punct ts "*" then
    punct "*"
    if ← optWord "const" then return .pointer false (← g.ty false)
    else
      word "mut"
      return .pointer true (← g.ty false)
  else if Ahead.punct ts "&" then
    punct "&"
    let life ← optLifetime
    let mutable ← optWord "mut"
    return .reference life mutable (← g.ty false)
  else if Ahead.punct ts "!" && !Ahead.punct ts "=" then
    punct "!"
    return .never
  else if Ahead.word ts "impl" then
    let start ← here
    word "impl"
    let bs ← g.bounds plus true true
    if bs.any fun | .trait .. | .silent => true | _ => false then return .implTrait bs
    else failAt start
  else if Ahead.word ts "_" then
    skip 1
    return .infer
  else if Ahead.lifetime ts then g.bareObject true
  else fail

end Calligraph.Grammar
