import Calligraph.Proofs.Arena.Reading
import Calligraph.Proofs.Sketch.Behind
import Calligraph.Proofs.Sketch.Drafted

/-!
# The shape of a sketch

The tree of a sketch shows the routines, modules and calls of a file as they are nested in its text.
What is known about them when they are drafted has no part in it.
-/

namespace Calligraph

/-- What a node stands for, whatever is known about it. -/
inductive Label where
  | root
  | module
  | routine
  | call
  | method (name : String)
deriving Repr, DecidableEq

def Mark.label : Mark → Label
  | .root => .root
  | .module => .module
  | .declaration _ => .routine
  | .call (.method _ name) => .method name
  | .call _ => .call

/-- A tree for each routine with a body, each module and each call, with the trees below it. -/
def Survey.shape : Survey (List (Branch Label)) where
  nothing := []
  append := (· ++ ·)
  call pos below := [.mk .call pos .call below]
  method pos name below := [.mk .call pos (.method name) below]
  routine sig below := [.mk .declaration sig.pos .routine below]
  required _ := []
  module pos below := [.mk .other pos .module below]

theorem Path.label_target (place : Place) (locals : List Frame) (p : Path) :
    (Mark.call (p.target place locals)).label = .call := by
  rcases p.target_cases place locals with h | ⟨names, h | h⟩ <;> rw [h] <;> rfl

/-- Calling an expression is no method call. -/
theorem Expr.label_target (place : Place) (locals : List Frame) (e : Expr) :
    (Mark.call (e.target place locals)).label = .call := by
  induction e using Expr.target_induct with
  | path p held => exact p.label_target place locals
  | paren inner ih => exact ih
  | attributed attrs inner ih => exact ih
  | other e he =>
    rw [he]
    rfl

/-- The nodes that are drafted have the shape of the syntax. -/
theorem Drafted.shape_eq {place : Place} {d e : Draft} {ns : List (Branch Mark)}
    {x : List (Branch Label)} (h : Drafted .shape place d ns e x) :
    Branch.mapAll Mark.label ns = x := by
  induction h with
  | nothing => rfl
  | append _ _ ih₁ ih₂ => rw [Branch.mapAll_append, ih₁, ih₂]; rfl
  | call pos func _ ih =>
    rw [callNode, Branch.mapAll, Branch.map, Expr.label_target, ih]
    rfl
  | method pos receiver name _ ih => rw [callNode, Branch.mapAll, Branch.map, ih]; rfl
  | before _ _ ih => exact ih
  | after _ _ ih => exact ih
  | block _ ih => exact ih
  | routine owner sig _ ih => rw [Branch.mapAll, Branch.map, ih]; rfl
  | required owner sig => rfl
  | enter scope _ ih => exact ih
  | under generics _ ih => exact ih
  | module pos _ ih => rw [Branch.mapAll, Branch.map, ih]; rfl

/-- What drafting does with the items of a file. -/
theorem Item.drafted_follows {M : Type} (v : Survey M) (home : List String) (items : List Item) :
    Drafted v {} { scopes := #[Scope.ofModule home items] } (Item.drafted home items).1
      (Item.drafted home items).2 (Item.surveyAll v items) :=
  (Item.passAll_accounts items).draft_follows v { scope := Scope.ofModule home items } _

end Calligraph
