import Calligraph.Grammar.Stmt

/-!
# Rules for items
-/

namespace Calligraph.Grammar

open Parse

variable (g : Grammar)

/-! ### Visibility -/

/-- The path of `pub(..)`, if the parentheses restrict the visibility. -/
def restriction : Parse Unit :=
  group .paren do
    if ← optWord "in" then discard modPath
    else
      let ts ← ahead
      if ["crate", "self", "super"].any (Ahead.word ts) && ts.tail.isEmpty then skip 1 else fail

/-- `pub(in` followed by no path. -/
def restrictionStarts (ts : List Token) : Bool :=
  match ts with
  | .group .paren _ _ inner :: _ => Ahead.word inner "in"
  | _ => false

/-- The visibility of an item, and whether one is written. -/
def visibility : Parse Bool := do
  if ← optWord "pub" then
    if restrictionStarts (← ahead) then restriction else discard (attempt restriction)
    return true
  else return false

/-- The tokens after the visibility of an item, and whether one is written. -/
def afterVisibility : Parse (Bool × List Token) := do
  let start ← get
  let written ← visibility
  let ts ← ahead
  set start
  return (written, ts)

/-! ### Routines -/

/-- Skips the words that may stand in front of `fn`. -/
def afterQualifiers (safe : Bool) (ts : List Token) : List Token :=
  let drop (w : String) (ts : List Token) : List Token := if Ahead.word ts w then ts.tail else ts
  let ts := drop "async" (drop "const" ts)
  let ts := if safe && Ahead.word ts "safe" then ts.tail else drop "unsafe" ts
  if Ahead.word ts "extern" then
    if Ahead.text ts.tail then ts.drop 2 else ts.tail
  else ts

def signatureAhead (safe : Bool) (ts : List Token) : Bool :=
  Ahead.word ts "fn" || Ahead.word (afterQualifiers safe ts) "fn"

/-- `self` in one of its forms, and the place of the word. It may not start a path. -/
def receiver : Parse Position := do
  let byRef ← optPunct "&"
  if byRef then discard optLifetime
  discard (optWord "mut")
  let pos ← here
  word "self"
  if Ahead.punct (← ahead) "::" then fail
  if !byRef then
    if ← optPunct ":" then discard (g.ty true)
  return pos

/-- A parameter of a routine; `none` for the dots of a variadic one. -/
def param (first : Bool) : Parse (Option Param) := do
  hold (← g.outerAttrs)
  if ← optPunct "..." then return none
  match ← attempt g.receiver with
  | some pos => if first then return some .receiver else failAt pos
  | none =>
    let ts ← ahead
    if Ahead.ident ts && Ahead.punct ts.tail "<" then
      return some (.typed .blank (← g.ty true))
    let p ← g.pat
    punct ":"
    if ← optPunct "..." then return none
    return some (.typed p.pat (← g.ty true))

def params : Parse (List Param) := do
  let first ← here
  rounds do
    if ← atEnd then return .stop
    match ← g.param ((← here) == first) with
    | none =>
      if !(← atEnd) then punct ","
      return .stop
    | some p =>
      if ← atEnd then return .last p
      punct ","
      return .next p

/-- The head of a routine; the expressions in it are held in the order generic parameters, `where`
clause, parameters, output. Gives `none` for a head marked `safe`. -/
def signature (safe : Bool) : Parse (Option Signature) := do
  discard (optWord "const")
  discard (optWord "async")
  let isUnsafe ← optWord "unsafe"
  let isSafe ← if safe && !isUnsafe then optWord "safe" else pure false
  optAbi
  word "fn"
  let pos ← here
  let name ← ident
  let (_, generics) ← g.generics
  groupThen .paren (holding g.params) fun (params, inParams) => do
    let (output, inOutput) ← holding (g.output true)
    let (_, predicates) ← g.whereClause
    hold (inParams ++ inOutput)
    return if isSafe then none else some ⟨name, pos, ⟨generics, predicates⟩, params, output⟩

/-- The head of a routine of this language. -/
def ownSignature : Parse Signature := do
  match ← alone (g.signature false) with
  | some sig => return sig
  | none => fail

/-! ### Types and constants -/

/-- Bounds after a colon, up to `where`, `=` or `;`. -/
def aliasBounds : Parse Bool := do
  if ← optPunct ":" then
    discard (separated "+"
      (fun ts => Ahead.word ts "where" || Ahead.punct ts "=" || Ahead.punct ts ";")
      (g.bound false true))
    return true
  else return false

/-- A `type` declaration after its visibility: whether it has bounds, and whether it has a
definition. `early` and `late` say where its `where` clause may stand. -/
def typeDecl (early late : Bool) : Parse (Bool × Bool) := do
  word "type"
  discard ident
  discard g.generics
  let bounded ← g.aliasBounds
  let (before, _) ← if early then g.whereClause else pure (false, [])
  let defined ← optPunct "="
  if defined then discard (g.ty true)
  if late && !before then discard g.whereClause
  punct ";"
  return (bounded, defined)

/-- A constant after `const`: its value, unless the declaration is generic or has none. -/
def constDecl : Parse (Option Expr) := do
  let ts ← ahead
  if Ahead.ident ts || Ahead.word ts "_" then discard anyIdent else fail
  let (angled, _) ← g.generics
  punct ":"
  discard (g.ty true)
  let value ← do
    if ← optPunct "=" then pure (some (← g.anyExpr)) else pure none
  let (bounded, _) ← g.whereClause
  punct ";"
  return if angled || bounded then none else value

/-- The fields between delimiters, whose types are held. -/
def fields (d : Delimiter) : Parse Unit :=
  group d do
    discard (commas do
      hold (← g.outerAttrs)
      discard visibility
      if d = .brace then
        let ts ← ahead
        let unnamed := Ahead.word ts "_"
        if unnamed then skip 1 else discard ident
        punct ":"
        let ts ← ahead
        if unnamed && (Ahead.word ts "struct" ||
            (Ahead.word ts "union" && Ahead.group ts.tail .brace)) then
          skip 1
          -- a nested record is accepted and says nothing
          discard (alone g.record)
          return
      discard (g.ty true))

/-- A structure after its visibility: its name. -/
def structDecl : Parse String := do
  word "struct"
  let name ← ident
  discard g.generics
  let (bounded, _) ← g.whereClause
  let ts ← ahead
  if !bounded && Ahead.group ts .paren then
    g.fields .paren
    discard g.whereClause
    punct ";"
  else if Ahead.group ts .brace then g.fields .brace
  else punct ";"
  return name

def variant : Parse Unit := do
  hold (← g.outerAttrs)
  discard visibility
  discard ident
  let ts ← ahead
  if Ahead.group ts .brace then g.fields .brace
  else if Ahead.group ts .paren then g.fields .paren
  if ← optPunct "=" then hold [← g.anyExpr]

def enumDecl : Parse String := do
  word "enum"
  let name ← ident
  discard g.generics
  discard g.whereClause
  group .brace (discard (commas g.variant))
  return name

def unionDecl : Parse String := do
  word "union"
  let name ← ident
  discard g.generics
  discard g.whereClause
  g.fields .brace
  return name

/-! ### Macro calls -/

def macroItem : Parse (List Expr) := do
  discard modPath
  punct "!"
  let ts ← ahead
  if Ahead.ident ts || Ahead.word ts "try" then skip 1
  let (d, args) ← g.macroCall
  if d ≠ .brace then punct ";"
  return args

def macroMember : Parse (List Expr) := do
  discard modPath
  punct "!"
  let (d, args) ← g.macroCall
  if d ≠ .brace then punct ";"
  return args

/-- A macro definition in its second form. -/
def macroDecl : Parse Unit := do
  word "macro"
  discard ident
  if Ahead.group (← ahead) .paren then skip 1
  if Ahead.group (← ahead) .brace then skip 1 else fail

/-! ### Impl blocks and traits -/

/-- A member of an impl block; `none` for what is neither a routine nor a constant. -/
def implMember : Parse (Option Member) := do
  discard g.outerAttrs
  let (written, ts) ← afterVisibility
  let isDefault := Ahead.word ts "default" && !Ahead.punct ts.tail "!"
  let ts := if isDefault then ts.tail else ts
  if signatureAhead false ts then
    discard visibility
    discard (optWord "default")
    let sig ← g.ownSignature
    if ← optPunct ";" then return none
    let (_, body) ← g.attrBlock
    return some (.function sig (some body))
  else if Ahead.word ts "const" then
    discard visibility
    if isDefault then word "default"
    word "const"
    return (← g.constDecl).map .constant
  else if Ahead.word ts "type" then
    discard visibility
    discard (optWord "default")
    discard (g.typeDecl false true)
    return none
  else if !written && !isDefault && Ahead.pathStart ts then
    discard g.macroMember
    return none
  else
    discard visibility
    if isDefault then word "default"
    fail

/-- A member of a trait; `none` for what is neither a routine nor a constant with a value. -/
def traitMember : Parse (Option Member) := do
  discard g.outerAttrs
  let written ← visibility
  let isDefault ← optWord "default"
  let ts ← ahead
  let plain := !written && !isDefault
  let found : Option Member ← do
    if signatureAhead false ts || (Ahead.word ts "const" &&
        ["async", "unsafe", "extern", "fn"].any (Ahead.word ts.tail)) then
      let sig ← g.ownSignature
      if Ahead.group (← ahead) .brace then
        let (_, body) ← g.attrBlock
        pure (some (.function sig (some body)))
      else
        punct ";"
        pure (some (.function sig none))
    else if Ahead.word ts "const" then
      word "const"
      pure ((← g.constDecl).map .constant)
    else if Ahead.word ts "type" then
      discard (g.typeDecl false true)
      pure none
    else if plain && Ahead.pathStart ts then
      discard g.macroMember
      pure none
    else fail
  return if plain then found else none

def members (p : Parse (Option Member)) : Parse (List Member) :=
  group .brace do
    discard g.innerAttrs
    return (← manyToEnd (alone p)).filterMap id

/-- An impl block; `none` for one that says nothing. -/
def implItem : Parse Item := do
  let written ← visibility
  discard (optWord "default")
  discard (optWord "unsafe")
  word "impl"
  let (_, generics) ← if genericsAhead (← ahead) then g.generics else pure (false, [])
  let ts ← ahead
  let isConst := Ahead.word ts "const" || (Ahead.punct ts "?" && Ahead.word ts.tail "const")
  if isConst then
    discard (optPunct "?")
    word "const"
  let mark ← here
  let negative := Ahead.punct (← ahead) "!" && !Ahead.group (← ahead).tail .brace
  if negative then punct "!"
  let first ← g.ty true
  let isFor ← optWord "for"
  let self ← if isFor then g.ty true else pure first
  if !isFor && negative then failAt mark
  let (_, predicates) ← g.whereClause
  let members ← g.members g.implMember
  let generics : Generics := ⟨generics, predicates⟩
  let isHidden := written || isConst
  match isFor, first with
  | false, _ => return if isHidden then .other [] else .implBlock generics none self members
  | true, .path (.plain rooted segments) =>
    return if isHidden then .other []
      else .implBlock generics (some (.plain rooted segments)) self members
  | true, _ => return .other []

def restOfTrait (name : String) (generics : List (String × List Bound)) : Parse Item := do
  if ← optPunct ":" then
    discard (separated "+" (fun ts => Ahead.word ts "where" || Ahead.group ts .brace)
      (g.bound false true))
  let (_, predicates) ← g.whereClause
  let members ← g.members g.traitMember
  return .traitDef name ⟨generics, predicates⟩ members

/-- A trait or the alias of a sum of traits. -/
def traitItem (attrs : List Expr) : Parse Item := do
  discard visibility
  let isUnsafe ← optWord "unsafe"
  let isAuto ← optWord "auto"
  word "trait"
  let name ← ident
  let ((_, generics), inGenerics) ← holding g.generics
  let isAlias ← if isUnsafe || isAuto then pure false else optPunct "="
  if isAlias then
    let (_, inBounds) ← holding (separated "+"
      (fun ts => Ahead.word ts "where" || Ahead.punct ts ";") (g.bound false false))
    let (_, inWhere) ← holding g.whereClause
    punct ";"
    return .other (attrs ++ inGenerics ++ inWhere ++ inBounds)
  else g.restOfTrait name generics

/-! ### Modules and foreign declarations -/

/-- A module; one without items is looked for elsewhere. -/
def moduleItem : Parse Item := do
  discard visibility
  discard (optWord "unsafe")
  word "mod"
  let pos ← here
  let name ← if Ahead.word (← ahead) "try" then anyIdent else ident
  if Ahead.group (← ahead) .brace then
    let items ← group .brace do
      discard g.innerAttrs
      manyToEnd g.item
    return .module name pos items
  else
    punct ";"
    return .other []

/-- A declaration in a block of foreign ones, by the expressions in it. -/
def foreignMember : Parse (List Expr) := do
  let attrs ← g.outerAttrs
  let (written, ts) ← afterVisibility
  if signatureAhead true ts then
    discard visibility
    let (sig, held) ← holding (g.signature true)
    if Ahead.group (← ahead) .brace then
      discard g.attrBlock
      return []
    else
      punct ";"
      return if sig.isSome then attrs ++ held else []
  else if Ahead.word ts "static" ||
      ((Ahead.word ts "unsafe" || Ahead.word ts "safe") && Ahead.word ts.tail "static") then
    discard visibility
    let marked ← do
      if ← optWord "unsafe" then pure true else optWord "safe"
    word "static"
    discard (optWord "mut")
    discard ident
    punct ":"
    let (_, held) ← holding (g.ty true)
    let valued ← optPunct "="
    if valued then discard g.anyExpr
    punct ";"
    return if marked || valued then [] else attrs ++ held
  else if Ahead.word ts "type" then
    discard visibility
    let ((bounded, defined), held) ← holding (g.typeDecl true true)
    return if bounded || defined then [] else attrs ++ held
  else if !written && Ahead.pathStart ts then return attrs ++ (← g.macroMember)
  else
    discard visibility
    fail

def foreignItem (attrs : List Expr) : Parse Item := do
  discard (optWord "unsafe")
  word "extern"
  if Ahead.text (← ahead) then skip 1
  let (inner, parts) ← group .brace do
    return (← g.innerAttrs, ← manyToEnd (alone g.foreignMember))
  return .other (attrs ++ inner ++ parts.flatten)

def externCrate (attrs : List Expr) : Parse Item := do
  discard visibility
  word "extern"
  word "crate"
  if Ahead.word (← ahead) "self" then skip 1 else discard ident
  if ← optWord "as" then
    if Ahead.word (← ahead) "_" then skip 1 else discard ident
  punct ";"
  return .other attrs

/-! ### Use declarations -/

def useTreeRule (rooted : Bool) : Parse (Option UseTree) := do
  let ts ← ahead
  if Ahead.ident ts || ["self", "super", "crate", "try"].any (Ahead.word ts) then
    let name ← anyIdent
    if ← optPunct "::" then return (← g.useTree false).map (.under name)
    else if ← optWord "as" then
      let ts ← ahead
      if Ahead.ident ts || Ahead.word ts "_" then return some (.rename name (← anyIdent))
      else fail
    else return some (.leaf name)
  else if Ahead.punct ts "*" then
    punct "*"
    return some .all
  else if Ahead.group ts .brace then
    let trees ← group .brace (commas do
      let atRoot ← if rooted then optPunct "::" else pure false
      let tree ← g.useTree (rooted && !atRoot)
      return if atRoot then none else tree)
    return (trees.mapM id).map .group
  else fail

def useItem (attrs : List Expr) : Parse Item := do
  discard visibility
  word "use"
  let rooted ← optPunct "::"
  let tree ← g.useTree (!rooted)
  punct ";"
  match tree with
  | some tree => return .uses tree attrs
  | none => return .other []

/-! ### Items -/

def staticItem (attrs : List Expr) : Parse Item := do
  discard visibility
  word "static"
  discard (optWord "mut")
  discard ident
  if ← optPunct "=" then
    discard g.anyExpr
    punct ";"
    return .other []
  else
    punct ":"
    let (_, held) ← holding (g.ty true)
    if ← optPunct ";" then return .other []
    else
      punct "="
      let value ← g.anyExpr
      punct ";"
      return .other (attrs ++ held ++ [value])

/-- A routine; one without a body says nothing. -/
def functionItem : Parse Item := do
  discard visibility
  let sig ← g.ownSignature
  if ← optPunct ";" then return .other []
  else
    let (_, body) ← g.attrBlock
    return .function sig body

/-- What follows the attributes and the visibility of an item decides its form. -/
def itemForm (attrs : List Expr) (written : Bool) (ts : List Token) : Parse Item := do
  let second := ts.tail
  let failAfterVisibility {α : Type} (n : Nat) : Parse α := do
    discard visibility
    skip n
    fail
  if signatureAhead false ts then g.functionItem
  else if Ahead.word ts "extern" then
    if Ahead.word second "crate" then externCrate attrs
    else if Ahead.group second .brace then g.foreignItem attrs
    else if Ahead.text second then
      if Ahead.group second.tail .brace then g.foreignItem attrs else failAfterVisibility 2
    else failAfterVisibility 1
  else if Ahead.word ts "use" then g.useItem attrs
  else if Ahead.word ts "static" then g.staticItem attrs
  else if Ahead.word ts "const" then
    discard visibility
    word "const"
    let (value, held) ← holding g.constDecl
    return .other (match value with | some e => attrs ++ held ++ [e] | none => [])
  else if Ahead.word ts "unsafe" then
    if Ahead.word second "trait" ||
        (Ahead.word second "auto" && Ahead.word second.tail "trait") then
      g.traitItem attrs
    else if Ahead.word second "impl" then g.implItem
    else if Ahead.word second "extern" then g.foreignItem attrs
    else if Ahead.word second "mod" then g.moduleItem
    else failAfterVisibility 1
  else if Ahead.word ts "mod" then g.moduleItem
  else if Ahead.word ts "type" then
    discard visibility
    let ((bounded, defined), held) ← holding (g.typeDecl true false)
    return .other (if bounded || !defined then [] else attrs ++ held)
  else if Ahead.word ts "struct" then
    discard visibility
    return .record (← g.structDecl)
  else if Ahead.word ts "enum" then
    discard visibility
    let (name, held) ← holding g.enumDecl
    return .enumeration name (attrs ++ held)
  else if Ahead.word ts "union" && Ahead.ident second then
    discard visibility
    return .record (← g.unionDecl)
  else if Ahead.word ts "trait" || (Ahead.word ts "auto" && Ahead.word second "trait") then
    g.traitItem attrs
  else if Ahead.word ts "impl" || (Ahead.word ts "default" && !Ahead.punct second "!") then
    g.implItem
  else if Ahead.word ts "macro" then
    discard visibility
    macroDecl
    return .other []
  else if !written && Ahead.pathStart ts then
    discard g.macroItem
    return .other []
  else failAfterVisibility 0

def itemRule : Parse Item :=
  alone do
    let attrs ← g.outerAttrs
    let (written, ts) ← afterVisibility
    g.itemForm attrs written ts

end Calligraph.Grammar
