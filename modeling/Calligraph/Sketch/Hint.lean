import Calligraph.Target
import Calligraph.Text.Capital
import Calligraph.Syntax.Basic

/-!
# Hints

What the text around an expression tells of its type, and what a call names.
-/

namespace Calligraph

/-- The names bound in one block, the latest first. -/
abbrev Frame := List (String × TypeHint)

/-- The value of a name in the innermost frame that has it. -/
def Frame.find? (frames : List Frame) (name : String) : Option TypeHint :=
  frames.findSome? (·.lookup name)

/-- Where a type is written: the index of the scope, and the type parameters of the declarations
around it with what their bounds tell, innermost first. -/
structure Place where
  scope : Nat := 0
  typeParams : List Frame := []

/-- The pointers that a receiver is looked for behind. -/
def wrappers : List String := ["Box", "Rc", "Arc"]

/-- The first trait that a type is bound by. -/
def Place.boundHint (place : Place) (bounds : List Bound) : TypeHint :=
  (bounds.findSome? fun
    | .trait false _ path => some (.named path.names place.scope)
    | _ => none).getD .unknown

mutual

/-- What a type as written tells. -/
def Ty.hint (place : Place) : Ty → TypeHint
  | .reference _ _ target => target.hint place
  | .paren inner => inner.hint place
  | .path (.plain rooted segments) =>
    match (Path.plain rooted segments).ident?.bind (Frame.find? place.typeParams) with
    | some hint => hint
    | none =>
      (Segment.lastWrapped place segments).getD (.named (segments.map Segment.name) place.scope)
  | .implTrait bounds => place.boundHint bounds
  | .dynTrait bounds => place.boundHint bounds
  | _ => .unknown

/-- What the type in a pointer tells, if the last segment is one. -/
def Segment.lastWrapped (place : Place) : List Segment → Option TypeHint
  | [] => none
  | [.angled name (.type inner :: _)] =>
    if wrappers.contains name then some (inner.hint place) else none
  | [_] => none
  | _ :: rest => Segment.lastWrapped place rest

end

/-- What the bounds of the type parameters tell. A predicate of the `where` clause counts for a
parameter that nothing is known of yet. -/
def Generics.frame (place : Place) (generics : Generics) : Frame :=
  let own := generics.params.reverse.map fun (name, bounds) => (name, place.boundHint bounds)
  generics.predicates.foldl (fun frame (ty, bounds) =>
    match ty with
    | .path path =>
      match path.ident? with
      | some name =>
        match frame.lookup name with
        | none | some .unknown => (name, place.boundHint bounds) :: frame
        | some _ => frame
      | none => frame
    | _ => frame) own

def Place.under (place : Place) (generics : Generics) : Place :=
  { place with typeParams := generics.frame place :: place.typeParams }

mutual

/-- The frame with the names of a pattern that matches a value of type `hint`. -/
def Pat.bind (place : Place) (hint : TypeHint) (frame : Frame) : Pat → Frame
  | .name n none => (n, hint) :: frame
  | .name n (some sub) => (n, hint) :: sub.bind place .unknown frame
  | .typed pat ty => pat.bind place (ty.hint place) frame
  | .inner pat => pat.bind place hint frame
  | .parts pats => Pat.bindAll place frame pats
  | .blank => frame

/-- The frame with the names of patterns of which nothing is known. -/
def Pat.bindAll (place : Place) (frame : Frame) : List Pat → Frame
  | [] => frame
  | p :: rest => Pat.bindAll place (p.bind place .unknown frame) rest

end

def Signature.frame (place : Place) (sig : Signature) : Frame :=
  sig.params.foldl (fun frame param =>
    match param with
    | .receiver => frame
    | .typed pat ty => pat.bind place (ty.hint place) frame) []

/-- Whether a name is that of a structure or a variant, which are called like routines. -/
def startsCapital (name : String) : Bool :=
  match name.toList with
  | c :: _ => Text.isCapital c
  | [] => false

def Path.target (place : Place) (locals : List Frame) (path : Path) : CallTarget :=
  let names? : Option (List String) :=
    match path with
    | .qualified (.path self) [] rest => some (self.names ++ rest.map Segment.name)
    | .qualified _ [] _ => none
    | path => some path.names
  match names? with
  | none => .dynamic
  | some [name] =>
    if (Frame.find? locals name).isSome then .dynamic
    else if startsCapital name then .construct [name] place.scope
    else .path [name] place.scope
  | some names =>
    match names.getLast? with
    | none => .dynamic
    | some last =>
      if startsCapital last then .construct names place.scope else .path names place.scope

namespace Expr

def target (place : Place) (locals : List Frame) : Expr → CallTarget
  | .path p _ => p.target place locals
  | .paren inner => inner.target place locals
  | .attributed _ inner => inner.target place locals
  | _ => .dynamic

/-- What the text of an expression tells of its type. -/
def hint (place : Place) (locals : List Frame) : Expr → TypeHint
  | .path (.plain _ segments) _ =>
    match segments.map Segment.name with
    | [name] =>
      match Frame.find? locals name with
      | some hint => hint
      | none => .named [if name = "self" then "Self" else name] place.scope
    | names => .named names place.scope
  | .call _ _ func _ =>
    match func.target place locals with
    | .path p scope => .returnOf (.path p scope)
    | .construct p scope => .returnOf (.construct p scope)
    | _ => .unknown
  | .method _ _ receiver name _ => .returnOf (.method (receiver.hint place locals) name)
  | .construct p _ => .named p.names place.scope
  | .paren inner => inner.hint place locals
  | .attributed _ inner => inner.hint place locals
  | .borrow inner => inner.hint place locals
  | .cast _ ty _ => ty.hint place
  | _ => .unknown

end Expr

end Calligraph
