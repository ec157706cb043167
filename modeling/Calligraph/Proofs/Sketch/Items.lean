import Mathlib.Data.List.Basic
import Calligraph.Binding
import Calligraph.Sketch.OfItems

/-!
# The items of a file

The items of a file at any depth, each with the scope that it is written in: `Item.within` finds
them without a draft. `Found.Lists` says that declarations are those of some items and no others.
-/

namespace Calligraph

/-! ## Single items -/

/-- The routines of the members of an impl block or a trait. -/
def Member.signatures (members : List Member) : List Signature :=
  members.filterMap fun
    | .function sig _ => some sig
    | .constant _ => none

/-- A routine that is declared under a path. -/
def RoutineName.under (owner : List String) (sig : Signature) : RoutineName :=
  ⟨owner ++ [sig.name], sig.renderParams⟩

namespace Item

/-- The path that the routines of an item are declared under. -/
def owner (scope : Scope) : Item → List String
  | .implBlock _ _ self _ => Context.selfPath { scope } self
  | .traitDef name _ _ => scope.home ++ [name]
  | _ => scope.home

/-- The type that an item declares. -/
def type? (scope : Scope) : Item → Option (List String)
  | .record name => some (scope.home ++ [name])
  | .enumeration name _ => some (scope.home ++ [name])
  | .traitDef name _ _ => some (scope.home ++ [name])
  | _ => none

/-- The type and the trait of an impl block. -/
def impl? (scope : Scope) : Item → Option (List String × Option (List String))
  | .implBlock _ trait self _ => some (Context.selfPath { scope } self, trait.map Path.names)
  | _ => none

/-- The routines of an item. -/
def signatures : Item → List Signature
  | .function sig _ => [sig]
  | .implBlock _ _ _ members => Member.signatures members
  | .traitDef _ _ members => Member.signatures members
  | _ => []

/-- The names of the routines of an item. -/
def names (scope : Scope) (item : Item) : List RoutineName :=
  item.signatures.map (.under (item.owner scope))

end Item

/-! ## Items inside of syntax -/

mutual

/-- The items in an expression. -/
def Expr.within (scope : Scope) : Expr → List (Scope × Item)
  | .path _ held => Expr.withinAll scope held
  | .call _ attrs func args =>
    Expr.withinAll scope attrs ++ func.within scope ++ Expr.withinAll scope args
  | .method _ attrs receiver _ args =>
    Expr.withinAll scope attrs ++ receiver.within scope ++ Expr.withinAll scope args
  | .construct _ parts => Expr.withinAll scope parts
  | .paren inner => inner.within scope
  | .borrow inner => inner.within scope
  | .cast inner _ held => inner.within scope ++ Expr.withinAll scope held
  | .binary left right => left.within scope ++ right.within scope
  | .compound parts => Expr.withinAll scope parts
  | .silent => []
  | .block body => Stmt.withinAll scope body
  | .letIn _ inner => inner.within scope
  | .branch cond body otherwise =>
    cond.within scope ++ Stmt.withinAll scope body ++ Expr.withinOption scope otherwise
  | .whileLoop cond body => cond.within scope ++ Stmt.withinAll scope body
  | .forLoop _ subject body => subject.within scope ++ Stmt.withinAll scope body
  | .select subject arms => subject.within scope ++ Arm.withinAll scope arms
  | .closure _ body => body.within scope
  | .attributed attrs inner => Expr.withinAll scope attrs ++ inner.within scope

def Expr.withinAll (scope : Scope) : List Expr → List (Scope × Item)
  | [] => []
  | e :: rest => e.within scope ++ Expr.withinAll scope rest

def Expr.withinOption (scope : Scope) : Option Expr → List (Scope × Item)
  | none => []
  | some e => e.within scope

def Arm.withinAll (scope : Scope) : List Arm → List (Scope × Item)
  | [] => []
  | .mk _ before body :: rest =>
    Expr.withinAll scope before ++ body.within scope ++ Arm.withinAll scope rest

def Stmt.within (scope : Scope) : Stmt → List (Scope × Item)
  | .bind _ init otherwise => Expr.withinOption scope init ++ Expr.withinOption scope otherwise
  | .item item => item.within scope
  | .expr e => e.within scope

def Stmt.withinAll (scope : Scope) : List Stmt → List (Scope × Item)
  | [] => []
  | s :: rest => s.within scope ++ Stmt.withinAll scope rest

def Stmt.withinBody (scope : Scope) : Option (List Stmt) → List (Scope × Item)
  | none => []
  | some stmts => Stmt.withinAll scope stmts

def Member.withinAll (scope : Scope) : List Member → List (Scope × Item)
  | [] => []
  | .function _ body :: rest => Stmt.withinBody scope body ++ Member.withinAll scope rest
  | .constant value :: rest => value.within scope ++ Member.withinAll scope rest

/-- An item and the items in it. Those of an impl block, a trait or a module are in its own
scope. -/
def Item.within (scope : Scope) : Item → List (Scope × Item)
  | .function sig body => (scope, .function sig body) :: Stmt.withinAll scope body
  | .implBlock generics trait self members =>
    (scope, .implBlock generics trait self members) ::
      Member.withinAll { scope with selfType := some (Context.selfPath { scope } self) } members
  | .traitDef name generics members =>
    (scope, .traitDef name generics members) ::
      Member.withinAll { scope with selfType := some (scope.home ++ [name]) } members
  | .module name pos items =>
    (scope, .module name pos items) ::
      Item.withinAll (Scope.ofModule (scope.home ++ [name]) items) items
  | .record name => [(scope, .record name)]
  | .enumeration name parts => (scope, .enumeration name parts) :: Expr.withinAll scope parts
  | .uses tree attrs => (scope, .uses tree attrs) :: Expr.withinAll scope attrs
  | .other parts => (scope, .other parts) :: Expr.withinAll scope parts

/-- All items in a list of items. -/
def Item.withinAll (scope : Scope) : List Item → List (Scope × Item)
  | [] => []
  | i :: rest => i.within scope ++ Item.withinAll scope rest

end

/-- The items of a file at any depth, each with the scope that it is written in. -/
def Item.inFile (home : List String) (items : List Item) : List (Scope × Item) :=
  Item.withinAll (Scope.ofModule home items) items

/-! ## Declarations of items -/

/-- The type and the trait of an impl block as recorded. -/
def ImplDecl.head (d : ImplDecl) : List String × Option (List String) :=
  (d.selfType, d.trait)

/-- What is declared, as far as it does not depend on scopes: types, impl blocks and routines. -/
@[ext]
structure Found where
  types : List (List String) := []
  impls : List (List String × Option (List String)) := []
  names : List RoutineName := []

/-- What a unit declares. -/
def Declarations.found (d : Declarations) : Found where
  types := d.types.toList
  impls := d.impls.toList.map ImplDecl.head
  names := d.routines.toList.map .ofDecl

namespace Found

def append (f g : Found) : Found :=
  ⟨f.types ++ g.types, f.impls ++ g.impls, f.names ++ g.names⟩

instance : Append Found := ⟨append⟩

theorem append_empty (f : Found) : f ++ ({} : Found) = f :=
  Found.ext (List.append_nil _) (List.append_nil _) (List.append_nil _)

theorem append_assoc (f g h : Found) : f ++ g ++ h = f ++ (g ++ h) :=
  Found.ext (List.append_assoc ..) (List.append_assoc ..) (List.append_assoc ..)

/-- What is found are the routines `own` and all that the items `xs` declare, and nothing else.
Types and impl blocks are in the order of the items. -/
structure Lists (f : Found) (own : List RoutineName) (xs : List (Scope × Item)) : Prop where
  types : f.types = xs.filterMap fun x => x.2.type? x.1
  impls : f.impls = xs.filterMap fun x => x.2.impl? x.1
  names : ∀ n, n ∈ f.names ↔ n ∈ own ∨ ∃ x ∈ xs, n ∈ x.2.names x.1

namespace Lists

variable {f g : Found} {own own' : List RoutineName} {xs ys : List (Scope × Item)}

theorem nothing : Lists {} [] [] :=
  ⟨rfl, rfl, by simp⟩

theorem append (h : f.Lists own xs) (h' : g.Lists own' ys) :
    (f ++ g).Lists (own ++ own') (xs ++ ys) where
  types := by
    rw [List.filterMap_append, ← h.types, ← h'.types]
    rfl
  impls := by
    rw [List.filterMap_append, ← h.impls, ← h'.impls]
    rfl
  names n := by
    have hmem : n ∈ (f ++ g).names ↔ n ∈ f.names ∨ n ∈ g.names := List.mem_append
    rw [hmem, h.names, h'.names]
    simp only [List.mem_append, or_and_right, exists_or, or_assoc, or_left_comm]

/-- One more routine. -/
theorem routine (h : f.Lists own xs) (name : RoutineName) :
    (({ names := [name] } : Found) ++ f).Lists (name :: own) xs where
  types := h.types
  impls := h.impls
  names n := by
    have hmem : n ∈ (({ names := [name] } : Found) ++ f).names ↔ n = name ∨ n ∈ f.names :=
      List.mem_cons
    rw [hmem, h.names, List.mem_cons, or_assoc]

/-- An item stands before the items in it, and its routines are found among theirs. -/
theorem item {scope : Scope} {i : Item} (h : f.Lists (i.names scope) xs) :
    (({ types := (i.type? scope).toList, impls := (i.impl? scope).toList } : Found) ++ f).Lists []
      ((scope, i) :: xs) where
  types := by
    show (i.type? scope).toList ++ f.types = _
    rw [h.types, List.filterMap_cons]
    cases i.type? scope <;> rfl
  impls := by
    show (i.impl? scope).toList ++ f.impls = _
    rw [h.impls, List.filterMap_cons]
    cases i.impl? scope <;> rfl
  names n := by
    show n ∈ f.names ↔ _
    rw [h.names]
    simp

end Lists

end Found

end Calligraph
