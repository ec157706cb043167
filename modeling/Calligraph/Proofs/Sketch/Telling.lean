import Calligraph.Sketch.Hint

/-!
# What tells something

Only a few forms of syntax tell what they call or what type they have. The rules here follow the
definitions of targets and hints: they have a case for each of these forms, and one for all others,
in which nothing is told wherever the syntax stands.
-/

namespace Calligraph

/-! ## Targets -/

/-- Calling a path calls a value, or a path in the scope around it. -/
theorem Path.target_cases (place : Place) (locals : List Frame) (p : Path) :
    p.target place locals = .dynamic ∨ ∃ names, p.target place locals = .path names place.scope ∨
      p.target place locals = .construct names place.scope := by
  unfold Path.target
  dsimp only
  split
  · exact .inl rfl
  · split
    · exact .inl rfl
    · split
      · exact .inr ⟨_, .inr rfl⟩
      · exact .inr ⟨_, .inl rfl⟩
  · split
    · exact .inl rfl
    · split
      · exact .inr ⟨_, .inr rfl⟩
      · exact .inr ⟨_, .inl rfl⟩

/-- Induction along what calling an expression means. -/
@[elab_as_elim]
theorem Expr.target_induct {motive : Expr → Prop}
    (path : ∀ p held, motive (.path p held))
    (paren : ∀ inner, motive inner → motive (.paren inner))
    (attributed : ∀ attrs inner, motive inner → motive (.attributed attrs inner))
    (other : ∀ e, (∀ place locals, e.target place locals = .dynamic) → motive e)
    (e : Expr) : motive e := by
  cases e with
  | path p held => exact path p held
  | paren inner => exact paren inner (target_induct path paren attributed other inner)
  | attributed attrs inner =>
    exact attributed attrs inner (target_induct path paren attributed other inner)
  | _ => exact other _ fun _ _ => rfl

/-! ## Hints of expressions -/

/-- Induction along what the text of an expression tells of its type. -/
@[elab_as_elim]
theorem Expr.hint_induct {motive : Expr → Prop}
    (path : ∀ rooted segments held, motive (.path (.plain rooted segments) held))
    (call : ∀ pos attrs func args, motive (.call pos attrs func args))
    (method : ∀ pos attrs receiver name args, motive receiver →
      motive (.method pos attrs receiver name args))
    (construct : ∀ p parts, motive (.construct p parts))
    (paren : ∀ inner, motive inner → motive (.paren inner))
    (attributed : ∀ attrs inner, motive inner → motive (.attributed attrs inner))
    (borrow : ∀ inner, motive inner → motive (.borrow inner))
    (cast : ∀ inner ty held, motive (.cast inner ty held))
    (other : ∀ e, (∀ place locals, e.hint place locals = .unknown) → motive e)
    (e : Expr) : motive e := by
  -- expressions, statements and items are declared together, so the recursion is by size
  have ih (inner : Expr) (_ : sizeOf inner < sizeOf e) : motive inner :=
    hint_induct path call method construct paren attributed borrow cast other inner
  cases e with
  | path p held =>
    cases p with
    | plain rooted segments => exact path rooted segments held
    | qualified self trait rest => exact other _ fun _ _ => rfl
  | call pos attrs func args => exact call pos attrs func args
  | method pos attrs receiver name args =>
    exact method pos attrs receiver name args
      (ih receiver (by rw [Expr.method.sizeOf_spec]; omega))
  | construct p parts => exact construct p parts
  | paren inner => exact paren inner (ih inner (by rw [Expr.paren.sizeOf_spec]; omega))
  | attributed attrs inner =>
    exact attributed attrs inner (ih inner (by rw [Expr.attributed.sizeOf_spec]; omega))
  | borrow inner => exact borrow inner (ih inner (by rw [Expr.borrow.sizeOf_spec]; omega))
  | cast inner ty held => exact cast inner ty held
  | _ => exact other _ fun _ _ => rfl

/-! ## Hints of types -/

/-- Bounds tell a trait by its path, or nothing, wherever they stand. -/
theorem Place.boundHint_cases (bounds : List Bound) :
    (∀ place : Place, place.boundHint bounds = .unknown) ∨
      ∃ path : Path, ∀ place : Place, place.boundHint bounds = .named path.names place.scope := by
  induction bounds with
  | nil => exact .inl fun _ => rfl
  | cons bound rest ih =>
    unfold boundHint at ih ⊢
    simp only [List.findSome?_cons]
    match bound with
    | .trait false _ path => exact .inr ⟨path, fun _ => rfl⟩
    | .trait true _ _ => exact ih
    | .lifetime _ => exact ih
    | .capture _ => exact ih
    | .silent => exact ih

/-- The last segment is that of a pointer, which tells what the type in it tells, or it is not. The
size is what induction over types goes by. -/
theorem Segment.lastWrapped_cases (segments : List Segment) :
    (∀ place, Segment.lastWrapped place segments = none) ∨
      ∃ inner : Ty, sizeOf inner < sizeOf segments ∧
        ∀ place, Segment.lastWrapped place segments = some (inner.hint place) := by
  induction segments with
  | nil => exact .inl fun _ => rfl
  | cons s rest ih =>
    cases rest with
    | cons t rest =>
      simp only [Segment.lastWrapped]
      rcases ih with hnone | ⟨inner, hsize, hinner⟩
      · exact .inl hnone
      · exact .inr ⟨inner, by rw [List.cons.sizeOf_spec]; omega, hinner⟩
    | nil =>
      cases s with
      | angled name args =>
        cases args with
        | nil => exact .inl fun _ => rfl
        | cons arg args =>
          cases arg with
          | type inner =>
            by_cases hname : wrappers.contains name
            · have hsize : sizeOf inner < sizeOf [Segment.angled name (.type inner :: args)] := by
                simp only [List.cons.sizeOf_spec, Segment.angled.sizeOf_spec,
                  GenericArg.type.sizeOf_spec]
                omega
              exact .inr ⟨inner, hsize, fun _ => if_pos hname⟩
            · exact .inl fun _ => if_neg hname
          | _ => exact .inl fun _ => rfl
      | _ => exact .inl fun _ => rfl

/-- Induction along what a type as written tells. -/
@[elab_as_elim]
theorem Ty.hint_induct {motive : Ty → Prop}
    (reference : ∀ life mutable target, motive target → motive (.reference life mutable target))
    (paren : ∀ inner, motive inner → motive (.paren inner))
    (named : ∀ rooted segments, (∀ place, Segment.lastWrapped place segments = none) →
      motive (.path (.plain rooted segments)))
    (pointer : ∀ rooted segments inner,
      (∀ place, Segment.lastWrapped place segments = some (inner.hint place)) → motive inner →
      motive (.path (.plain rooted segments)))
    (implTrait : ∀ bounds, motive (.implTrait bounds))
    (dynTrait : ∀ bounds, motive (.dynTrait bounds))
    (other : ∀ ty, (∀ place, ty.hint place = .unknown) → motive ty)
    (ty : Ty) : motive ty := by
  have ih (inner : Ty) (_ : sizeOf inner < sizeOf ty) : motive inner :=
    hint_induct reference paren named pointer implTrait dynTrait other inner
  cases ty with
  | reference life mutable target =>
    exact reference life mutable target (ih target (by rw [Ty.reference.sizeOf_spec]; omega))
  | paren inner => exact paren inner (ih inner (by rw [Ty.paren.sizeOf_spec]; omega))
  | path p =>
    cases p with
    | plain rooted segments =>
      rcases Segment.lastWrapped_cases segments with hnone | ⟨inner, hsize, hinner⟩
      · exact named rooted segments hnone
      · have hless : sizeOf inner < sizeOf (Ty.path (.plain rooted segments)) := by
          rw [Ty.path.sizeOf_spec, Path.plain.sizeOf_spec]
          omega
        exact pointer rooted segments inner hinner (ih inner hless)
    | qualified self trait rest => exact other _ fun _ => rfl
  | implTrait bounds => exact implTrait bounds
  | dynTrait bounds => exact dynTrait bounds
  | _ => exact other _ fun _ => rfl

end Calligraph
