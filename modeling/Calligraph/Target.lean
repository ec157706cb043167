/-!
# Call targets and type hints

What a call names and what type an expression has, as far as the text of one unit tells. Names are
not resolved yet: each path comes with the index of the scope it is written in.
-/

namespace Calligraph

mutual

/-- The type of an expression as far as its text tells. -/
inductive TypeHint where
  /-- The type at a path written in a scope. -/
  | named (path : List String) (scope : Nat)
  /-- Whatever the call returns. -/
  | returnOf (target : CallTarget)
  | unknown

/-- What a call names. -/
inductive CallTarget where
  /-- A routine at a path written in a scope. -/
  | path (path : List String) (scope : Nat)
  /-- A path that ends with a capital: a value being built, unless it names a routine. -/
  | construct (path : List String) (scope : Nat)
  /-- The method `name` of the receiver's type. -/
  | method (receiver : TypeHint) (name : String)
  /-- A value that is called. -/
  | dynamic

end

instance : Inhabited TypeHint := ⟨.unknown⟩
instance : Inhabited CallTarget := ⟨.dynamic⟩

deriving instance Repr for TypeHint, CallTarget
deriving instance DecidableEq for TypeHint, CallTarget

end Calligraph
