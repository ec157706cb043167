import Calligraph.Library
import Calligraph.Sketch.Basic
import Std.Data.TreeMap
import Std.Data.TreeSet

/-!
# Bindings

What paths and methods mean across all units of a project and the libraries it uses. The first
declaration of a path counts, and the units come before the libraries.
-/

namespace Calligraph

/-- What tells a routine from others: its path and the texts of its parameter types. -/
structure RoutineName where
  path : List String
  params : List String
deriving Repr, DecidableEq, Inhabited

namespace RoutineName

def text (n : RoutineName) : String :=
  pathKey n.path ++ "(" ++ ", ".intercalate n.params ++ ")"

def ofDecl (d : RoutineDecl) : RoutineName :=
  ⟨d.path, d.params⟩

end RoutineName

/-- A routine that calls can mean. -/
structure BoundRoutine where
  name : RoutineName
  returns : Option (List String)
deriving Repr, DecidableEq, Inhabited

/-- The routines, the types and the traits of each type, by the text of their paths. -/
structure Bindings where
  routines : Std.TreeMap String BoundRoutine := {}
  types : Std.TreeSet String := {}
  traits : Std.TreeMap String (List (List String)) := {}

namespace Bindings

def typeAt (b : Bindings) (s : Sketch) (path : List String) (scope : Nat) :
    Option (List String) := do
  ((← s.scopes[scope]?).candidates path).find? fun c => b.types.contains (pathKey c)

/-- The method of a type: its own, or that of the first of its traits that has one. -/
def methodOf (b : Bindings) (type : List String) (name : String) : Option BoundRoutine :=
  match b.routines[pathKey (type ++ [name])]? with
  | some r => some r
  | none =>
    (b.traits.getD (pathKey type) []).findSome? fun trait =>
      b.routines[pathKey (trait ++ [name])]?

/-- The routine at the first of some paths that has one. -/
def declaredIn (b : Bindings) (paths : List (List String)) : Option BoundRoutine :=
  paths.findSome? fun c => b.routines[pathKey c]?

/-- The routine that a path means in a scope, where a path may lead through a type to the method of
a trait. -/
def routineAt (b : Bindings) (s : Sketch) (path : List String) (scope : Nat) :
    Option BoundRoutine := do
  match b.declaredIn ((← s.scopes[scope]?).candidates path) with
  | some r => some r
  | none =>
    let owner := path.dropLast
    if owner.isEmpty then none
    else b.methodOf (← b.typeAt s owner scope) (← path.getLast?)

mutual

def resolve (b : Bindings) (s : Sketch) : CallTarget → Option BoundRoutine
  | .path path scope => b.routineAt s path scope
  | .construct path scope => b.routineAt s path scope
  | .method receiver name => (b.typeOf s receiver).bind fun type => b.methodOf type name
  | .dynamic => none

def typeOf (b : Bindings) (s : Sketch) : TypeHint → Option (List String)
  | .named path scope => b.typeAt s path scope
  | .returnOf target =>
    match b.resolve s target with
    | some r => r.returns
    | none =>
      match target with
      | .construct path scope => b.typeAt s path scope
      | _ => none
  | .unknown => none

end

/-- A target calls something, unless it builds a value. -/
def isCall (b : Bindings) (s : Sketch) (target : CallTarget) : Bool :=
  match target with
  | .construct .. => (b.resolve s target).isSome
  | _ => true

/-! ### Building -/

/-- Adds the types that a unit declares or has impl blocks for. -/
def addTypes (b : Bindings) (s : Sketch) : Bindings :=
  { b with
    types := (b.types.insertMany (s.types.toList.map pathKey)).insertMany
      (s.impls.toList.map fun d => pathKey d.selfType) }

/-- Adds the types that the routines of a library belong to. -/
def addOwners (b : Bindings) (l : Library) : Bindings :=
  { b with
    types := b.types.insertMany
      ((l.routines.map fun r => r.path.dropLast).filter (! ·.isEmpty) |>.map pathKey) }

def addTrait (b : Bindings) (type : String) (trait : List String) : Bindings :=
  let old := b.traits.getD type []
  if old.contains trait then b else { b with traits := b.traits.insert type (old ++ [trait]) }

/-- Adds the traits of the impl blocks of a unit. -/
def addTraits (b : Bindings) (s : Sketch) : Bindings :=
  s.impls.toList.foldl (fun b d =>
    match d.trait.bind fun path => b.typeAt s path d.scope with
    | some trait => b.addTrait (pathKey d.selfType) trait
    | none => b) b

/-- Adds a routine, unless its path is taken. -/
def addRoutine (b : Bindings) (r : BoundRoutine) : Bindings :=
  { b with routines := b.routines.insertIfNew (pathKey r.name.path) r }

def addDeclared (b : Bindings) (s : Sketch) : Bindings :=
  s.routines.toList.foldl (fun b d => b.addRoutine ⟨.ofDecl d, b.typeOf s d.returns⟩) b

def addLibrary (b : Bindings) (l : Library) : Bindings :=
  l.routines.foldl (fun b r =>
    b.addRoutine
      ⟨⟨r.path, r.params⟩, r.returns.filter fun type => b.types.contains (pathKey type)⟩) b

def build (sketches : List Sketch) (libraries : List Library) : Bindings :=
  let b := libraries.foldl addOwners (sketches.foldl addTypes {})
  libraries.foldl addLibrary (sketches.foldl addDeclared (sketches.foldl addTraits b))

end Bindings

end Calligraph
