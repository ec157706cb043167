/-!
# Types and paths

Types, paths and bounds as written. A type can hold expressions: the length of an array, a value
among generic arguments. Their text counts here only as far as it is shown; the expressions
themselves stand beside the type in the syntax of what holds it.
-/

namespace Calligraph

/-- A value in a type. -/
inductive ConstText where
  /-- An integer in decimal digits. -/
  | digits (text : String)
  /-- The names of a path. -/
  | names (path : List String)
  | other
deriving Repr, DecidableEq, Inhabited

mutual

inductive Ty where
  | path (path : Path)
  | reference (life : Option String) (mutable : Bool) (target : Ty)
  | pointer (mutable : Bool) (target : Ty)
  | slice (element : Ty)
  | array (element : Ty) (length : ConstText)
  | tuple (elements : List Ty)
  | paren (inner : Ty)
  | implTrait (bounds : List Bound)
  | dynTrait (bounds : List Bound)
  /-- `for<binder> fn(params) -> output` -/
  | function (binder : List String) (params : List Ty) (output : Option Ty)
  | never
  | infer
  /-- A macro call, by the names of its path. -/
  | expansion (path : List String)
  /-- A form that is accepted and says nothing. -/
  | silent

/-- A path, or a path qualified by a type: `<self as trait>::rest`, where an empty `trait` stands
for `<self>::rest`. -/
inductive Path where
  | plain (rooted : Bool) (segments : List Segment)
  | qualified (self : Ty) (trait rest : List Segment)

inductive Segment where
  | plain (name : String)
  | angled (name : String) (args : List GenericArg)
  /-- `name(inputs) -> output` -/
  | arrow (name : String) (inputs : List Ty) (output : Option Ty)

inductive GenericArg where
  | lifetime (name : String)
  | type (ty : Ty)
  | value (text : ConstText)
  /-- `name = ty` -/
  | assocType (name : String) (ty : Ty)
  /-- `name = value` -/
  | assocValue (name : String) (text : ConstText)
  /-- `name: bounds` -/
  | constraint (name : String) (bounds : List Bound)

inductive Bound where
  /-- A trait under `for<binder>`; `maybe` if a question mark relaxes it. -/
  | trait (maybe : Bool) (binder : List String) (path : Path)
  | lifetime (name : String)
  /-- `use<names>` -/
  | capture (names : List String)
  | silent

end

instance : Inhabited Ty := ⟨.never⟩
instance : Inhabited Path := ⟨.plain false []⟩

def Segment.name : Segment → String
  | .plain n => n
  | .angled n _ => n
  | .arrow n _ _ => n

namespace Path

/-- The names of a path without their arguments; of a qualified path, those outside of the type. -/
def names : Path → List String
  | .plain _ segments => segments.map Segment.name
  | .qualified _ trait rest => trait.map Segment.name ++ rest.map Segment.name

/-- The name of a path that is one bare name. -/
def ident? : Path → Option String
  | .plain false [.plain n] => some n
  | _ => none

def ofName (n : String) : Path :=
  .plain false [.plain n]

end Path

/-- The type parameters of a declaration with their bounds, and the bounds of its `where` clause in
the order of the text. -/
structure Generics where
  params : List (String × List Bound) := []
  predicates : List (Ty × List Bound) := []

instance : Inhabited Generics := ⟨{}⟩

end Calligraph
