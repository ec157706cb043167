import Calligraph.Sketch.Basic
import Calligraph.Sketch.Hint
import Calligraph.Sketch.Imports
import Calligraph.Syntax.Render

/-!
# The sketch of a file

Routines with a body, modules with their items and calls become nodes, each under the innermost node
around it; all else is looked through. Calls are named with what is known where they stand: `let`
and patterns bind names up to the end of the block, and the body of a routine sees no names but its
own.
-/

namespace Calligraph

/-- What has been found so far, and the names bound at this point, innermost block first. -/
structure Draft extends Declarations where
  locals : List Frame := []

abbrev Drafting := StateM Draft

/-- Where something is written: the scope and the type parameters around it. -/
structure Context where
  place : Place := {}
  scope : Scope

namespace Drafting

variable {α : Type}

/-- Binds the names of a pattern in the innermost block. -/
def bind (place : Place) (hint : TypeHint) (pat : Pat) : Drafting Unit :=
  modify fun d =>
    match d.locals with
    | [] => d
    | frame :: outer => { d with locals := pat.bind place hint frame :: outer }

/-- Runs `action` in a block of its own. -/
def block (action : Drafting α) : Drafting α := do
  modify fun d => { d with locals := [] :: d.locals }
  let a ← action
  modify fun d => { d with locals := d.locals.tail }
  return a

/-- Runs `action` with the names of `frame` and no others. -/
def body (frame : Frame) (action : Drafting α) : Drafting α := do
  let outer := (← get).locals
  modify fun d => { d with locals := [frame] }
  let a ← action
  modify fun d => { d with locals := outer }
  return a

def declareType (path : List String) : Drafting Unit :=
  modify fun d => { d with types := d.types.push path }

def declareImpl (decl : ImplDecl) : Drafting Unit :=
  modify fun d => { d with impls := d.impls.push decl }

/-- Records a scope and gives the context in it. -/
def enter (ctx : Context) (scope : Scope) : Drafting Context := do
  let d ← get
  set { d with scopes := d.scopes.push scope }
  return { place := { ctx.place with scope := d.scopes.size }, scope }

/-- Records a routine and gives its index. `place` is the place inside of it. -/
def declareRoutine (place : Place) (path : List String) (sig : Signature) : Drafting Nat := do
  let d ← get
  let decl : RoutineDecl :=
    { path
      params := sig.renderParams
      returns := (sig.output.map (Ty.hint place)).getD .unknown
      scope := place.scope }
  set { d with routines := d.routines.push decl }
  return d.routines.size

end Drafting

namespace Context

def under (ctx : Context) (generics : Generics) : Context :=
  { ctx with place := ctx.place.under generics }

/-- The path of the type of an impl block: its likeliest meaning if it is a path, and otherwise its
text. -/
def selfPath (ctx : Context) : Ty → List String
  | .path (.plain rooted segments) => ctx.scope.qualify (Path.plain rooted segments).names
  | ty => [ty.render]

end Context

def callNode (position : Position) (target : CallTarget) (below : List (Branch Mark)) :
    List (Branch Mark) :=
  [.mk .call position (.call target) below]

mutual

/-- The nodes of an expression. -/
def Expr.draft (ctx : Context) : Expr → Drafting (List (Branch Mark))
  | .path _ held => Expr.draftAll ctx held
  | .call pos attrs func args => do
    let target := func.target ctx.place (← get).locals
    let before ← Expr.draftAll ctx attrs
    let callee ← func.draft ctx
    let rest ← Expr.draftAll ctx args
    return callNode pos target (before ++ callee ++ rest)
  | .method pos attrs receiver name args => do
    let target := .method (receiver.hint ctx.place (← get).locals) name
    let before ← Expr.draftAll ctx attrs
    let first ← receiver.draft ctx
    let rest ← Expr.draftAll ctx args
    return callNode pos target (before ++ first ++ rest)
  | .construct _ parts => Expr.draftAll ctx parts
  | .paren inner => inner.draft ctx
  | .borrow inner => inner.draft ctx
  | .cast inner _ held => do
    let first ← inner.draft ctx
    return first ++ (← Expr.draftAll ctx held)
  | .binary left right => do
    let first ← left.draft ctx
    return first ++ (← right.draft ctx)
  | .compound parts => Expr.draftAll ctx parts
  | .silent => return []
  | .block body => Drafting.block (Stmt.draftAll ctx body)
  | .letIn pat inner => do
    let nodes ← inner.draft ctx
    Drafting.bind ctx.place .unknown pat
    return nodes
  | .branch cond body otherwise => do
    let nodes ← Drafting.block do
      let first ← cond.draft ctx
      return first ++ (← Drafting.block (Stmt.draftAll ctx body))
    return nodes ++ (← Expr.draftOption ctx otherwise)
  | .whileLoop cond body => Drafting.block do
    let first ← cond.draft ctx
    return first ++ (← Drafting.block (Stmt.draftAll ctx body))
  | .forLoop pat subject body => do
    let first ← subject.draft ctx
    let rest ← Drafting.block do
      Drafting.bind ctx.place .unknown pat
      Drafting.block (Stmt.draftAll ctx body)
    return first ++ rest
  | .select subject arms => do
    let first ← subject.draft ctx
    return first ++ (← Arm.draftAll ctx arms)
  | .closure params body => Drafting.block do
    params.forM (Drafting.bind ctx.place .unknown)
    body.draft ctx
  | .attributed attrs inner => do
    let first ← Expr.draftAll ctx attrs
    return first ++ (← inner.draft ctx)

def Expr.draftAll (ctx : Context) : List Expr → Drafting (List (Branch Mark))
  | [] => return []
  | e :: rest => do
    let first ← e.draft ctx
    return first ++ (← Expr.draftAll ctx rest)

def Expr.draftOption (ctx : Context) : Option Expr → Drafting (List (Branch Mark))
  | none => return []
  | some e => e.draft ctx

/-- The nodes of the arms of a `match`, each with the names of its pattern. -/
def Arm.draftAll (ctx : Context) : List Arm → Drafting (List (Branch Mark))
  | [] => return []
  | .mk pat before body :: rest => do
    let nodes ← Drafting.block do
      Drafting.bind ctx.place .unknown pat
      let first ← Expr.draftAll ctx before
      return first ++ (← body.draft ctx)
    return nodes ++ (← Arm.draftAll ctx rest)

/-- The nodes of a statement. An initial value does not see the names that it is bound to. -/
def Stmt.draft (ctx : Context) : Stmt → Drafting (List (Branch Mark))
  | .bind pat init otherwise => do
    let first ← Expr.draftOption ctx init
    let rest ← Expr.draftOption ctx otherwise
    let locals := (← get).locals
    let hint := match init with
      | some e => e.hint ctx.place locals
      | none => .unknown
    Drafting.bind ctx.place hint pat
    return first ++ rest
  | .item item => item.draft ctx
  | .expr e => e.draft ctx

def Stmt.draftAll (ctx : Context) : List Stmt → Drafting (List (Branch Mark))
  | [] => return []
  | s :: rest => do
    let first ← s.draft ctx
    return first ++ (← Stmt.draftAll ctx rest)

/-- The nodes of the members of an impl block or a trait, which declare their routines under
`owner`. -/
def Member.draftAll (ctx : Context) (owner : List String) :
    List Member → Drafting (List (Branch Mark))
  | [] => return []
  | .function sig body :: rest => do
    let inner := ctx.under sig.generics
    let index ← Drafting.declareRoutine inner.place (owner ++ [sig.name]) sig
    let first ← Stmt.draftBody inner sig index body
    return first ++ (← Member.draftAll ctx owner rest)
  | .constant value :: rest => do
    let first ← value.draft ctx
    return first ++ (← Member.draftAll ctx owner rest)

/-- The node of a routine, if it has a body. -/
def Stmt.draftBody (ctx : Context) (sig : Signature) (index : Nat) :
    Option (List Stmt) → Drafting (List (Branch Mark))
  | none => return []
  | some stmts => do
    let below ← Drafting.body (sig.frame ctx.place) (Drafting.block (Stmt.draftAll ctx stmts))
    return [.mk .declaration sig.pos (.declaration index) below]

def Item.draft (ctx : Context) : Item → Drafting (List (Branch Mark))
  | .function sig stmts => do
    let inner := ctx.under sig.generics
    let index ← Drafting.declareRoutine inner.place (ctx.scope.home ++ [sig.name]) sig
    let below ←
      Drafting.body (sig.frame inner.place) (Drafting.block (Stmt.draftAll inner stmts))
    return [.mk .declaration sig.pos (.declaration index) below]
  | .implBlock generics trait self members => do
    let owner := ctx.selfPath self
    let inner ← Drafting.enter ctx { ctx.scope with selfType := some owner }
    Drafting.declareImpl
      { selfType := owner, trait := trait.map Path.names, scope := inner.place.scope }
    Member.draftAll (inner.under generics) owner members
  | .traitDef name generics members => do
    let owner := ctx.scope.home ++ [name]
    Drafting.declareType owner
    let inner ← Drafting.enter ctx { ctx.scope with selfType := some owner }
    Member.draftAll (inner.under generics) owner members
  | .module name pos items => do
    let inner ← Drafting.enter ctx (Scope.ofModule (ctx.scope.home ++ [name]) items)
    let below ← Item.draftAll inner items
    return [.mk .other pos .module below]
  | .record name => do
    Drafting.declareType (ctx.scope.home ++ [name])
    return []
  | .enumeration name parts => do
    Drafting.declareType (ctx.scope.home ++ [name])
    Expr.draftAll ctx parts
  | .uses _ attrs => Expr.draftAll ctx attrs
  | .other parts => Expr.draftAll ctx parts

def Item.draftAll (ctx : Context) : List Item → Drafting (List (Branch Mark))
  | [] => return []
  | i :: rest => do
    let first ← i.draft ctx
    return first ++ (← Item.draftAll ctx rest)

end

/-- The sketch of a file whose items are those of the module `home`. -/
def Sketch.ofItems (home : List String) (items : List Item) : Sketch :=
  let scope := Scope.ofModule home items
  let (nodes, draft) := (Item.draftAll { scope } items).run { scopes := #[scope] }
  { draft.toDeclarations with arena := (Arena.new .root).graftAll 0 nodes }

end Calligraph
