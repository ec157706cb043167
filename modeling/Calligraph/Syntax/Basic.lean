import Calligraph.Text.Position
import Calligraph.Syntax.Type

/-!
# Syntax of a source file

The syntax keeps what the analysis can tell apart. Calls, bindings, paths and types are kept as
written; an expression of any other form is the list of its parts, in the order they are looked at.
Of attributes, only those of the form `name = value` hold an expression, so a list of attributes is
the list of their values.
-/

namespace Calligraph

/-- The names that a `use` declaration brings into a module. -/
inductive UseTree where
  /-- `name::rest` -/
  | under (name : String) (rest : UseTree)
  | leaf (name : String)
  /-- `name as label` -/
  | rename (name label : String)
  /-- `*` -/
  | all
  | group (trees : List UseTree)
deriving Repr, Inhabited

/-- A pattern, as far as it binds names. -/
inductive Pat where
  | name (name : String) (sub : Option Pat)
  | typed (pat : Pat) (ty : Ty)
  /-- A reference pattern or a pattern between parentheses. -/
  | inner (pat : Pat)
  /-- Tuples, slices, structures and alternatives. -/
  | parts (pats : List Pat)
  /-- Forms that bind nothing. -/
  | blank

instance : Inhabited Pat := ⟨.blank⟩

inductive Param where
  | receiver
  | typed (pat : Pat) (ty : Ty)

/-- The head of a routine, `pos` the place of its name. -/
structure Signature where
  name : String
  pos : Position
  generics : Generics
  params : List Param
  output : Option Ty

mutual

inductive Expr where
  /-- A path and the expressions in its generic arguments. -/
  | path (path : Path) (held : List Expr)
  /-- A call, `pos` the place where `func` starts. -/
  | call (pos : Position) (attrs : List Expr) (func : Expr) (args : List Expr)
  /-- A method call, `pos` the place of the name; `args` starts with the expressions in the generic
  arguments of the method. -/
  | method (pos : Position) (attrs : List Expr) (receiver : Expr) (name : String)
      (args : List Expr)
  /-- `path { parts }` -/
  | construct (path : Path) (parts : List Expr)
  | paren (inner : Expr)
  /-- `&inner` or `*inner` -/
  | borrow (inner : Expr)
  /-- `inner as ty`, with the expressions in `ty`. -/
  | cast (inner : Expr) (ty : Ty) (held : List Expr)
  /-- An operator between two operands, assignment included. -/
  | binary (left right : Expr)
  /-- Any other form, a macro call included. -/
  | compound (parts : List Expr)
  /-- A block with whatever is written in front of it. -/
  | block (body : List Stmt)
  /-- `let pat = inner` as a condition. -/
  | letIn (pat : Pat) (inner : Expr)
  | branch (cond : Expr) (body : List Stmt) (otherwise : Option Expr)
  | whileLoop (cond : Expr) (body : List Stmt)
  | forLoop (pat : Pat) (subject : Expr) (body : List Stmt)
  | select (subject : Expr) (arms : List Arm)
  | closure (params : List Pat) (body : Expr)
  | attributed (attrs : List Expr) (inner : Expr)
  /-- A form that is accepted and says nothing. -/
  | silent

/-- An arm of a `match`; `before` holds the expressions of its attributes, its pattern and its
guard. -/
inductive Arm where
  | mk (pat : Pat) (before : List Expr) (body : Expr)

inductive Stmt where
  /-- `let pat = init else otherwise` -/
  | bind (pat : Pat) (init otherwise : Option Expr)
  | item (item : Item)
  | expr (expr : Expr)

/-- A routine or a constant of an impl block or a trait. -/
inductive Member where
  | function (sig : Signature) (body : Option (List Stmt))
  | constant (value : Expr)

inductive Item where
  | function (sig : Signature) (body : List Stmt)
  | implBlock (generics : Generics) (trait : Option Path) (self : Ty) (members : List Member)
  | traitDef (name : String) (generics : Generics) (members : List Member)
  /-- A module with its items, `pos` the place of its name. -/
  | module (name : String) (pos : Position) (items : List Item)
  /-- A structure or a union. -/
  | record (name : String)
  /-- An enumeration and the expressions in it. -/
  | enumeration (name : String) (parts : List Expr)
  | uses (tree : UseTree) (attrs : List Expr)
  /-- Any other item, by the expressions in it. -/
  | other (parts : List Expr)

end

instance : Inhabited Expr := ⟨.compound []⟩
instance : Inhabited Item := ⟨.other []⟩

namespace Expr

/-- The expression under attributes. Where an expression is looked at after its attributes they are
kept, and otherwise dropped; those of a call belong to the call. -/
def withAttrs (attrs : List Expr) (e : Expr) : Expr :=
  if attrs.isEmpty then e
  else
    match e with
    | .call pos own func args => .call pos (attrs ++ own) func args
    | .method pos own receiver name args => .method pos (attrs ++ own) receiver name args
    | .attributed own inner => .attributed (attrs ++ own) inner
    | .letIn .. | .branch .. | .whileLoop .. | .forLoop .. | .closure .. | .silent => e
    | e => .attributed attrs e

/-- The expression with the attributes on its leftmost operand, where a statement puts them. -/
def withLeftAttrs (attrs : List Expr) : Expr → Expr
  | .binary left right => .binary (left.withLeftAttrs attrs) right
  | .cast inner ty held => .cast (inner.withLeftAttrs attrs) ty held
  | e => e.withAttrs attrs

/-- How the expression is shown as a value in a type; the digits of an integer are known from its
token. -/
def constText : Expr → ConstText
  | .path p _ => .names p.names
  | .attributed _ inner => inner.constText
  | _ => .other

end Expr

end Calligraph
