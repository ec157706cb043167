import Calligraph.Proofs.Binding.FirstDeclaration

/-!
# What resolution finds

Whatever a call is resolved to stands in the table of routines (`Bindings.exists_key_of_resolve`),
so it is the first declaration of its path, and whatever a hint is resolved to is a known type
(`Bindings.contains_of_typeOf`). The method of a type can be told from the declarations and the impl
blocks alone (`Bindings.declaresMethod_of_methodOf`).
-/

namespace Calligraph.Bindings

variable {b : Bindings} {s : Sketch} {type path : List String} {scope : Nat} {name : String}
  {r : BoundRoutine} {sketches : List Sketch} {libraries : List Library}

/-! ## Routines -/

theorem exists_key_of_methodOf (h : b.methodOf type name = some r) :
    ∃ key : String, b.routines[key]? = some r := by
  unfold methodOf at h
  split at h
  · next own hown =>
    cases h
    exact ⟨_, hown⟩
  · obtain ⟨trait, -, htrait⟩ := List.exists_of_findSome?_eq_some h
    exact ⟨_, htrait⟩

theorem exists_key_of_routineAt (h : b.routineAt s path scope = some r) :
    ∃ key : String, b.routines[key]? = some r := by
  obtain ⟨here, -, h⟩ := Option.bind_eq_some_iff.1 h
  dsimp only at h
  split at h
  · next found hfound =>
    cases h
    obtain ⟨c, -, hc⟩ := List.exists_of_findSome?_eq_some hfound
    exact ⟨_, hc⟩
  · split at h
    · cases h
    · obtain ⟨type, -, h⟩ := Option.bind_eq_some_iff.1 h
      obtain ⟨name, -, h⟩ := Option.bind_eq_some_iff.1 h
      exact exists_key_of_methodOf h

/-- A call is resolved to nothing but a routine of the table. -/
theorem exists_key_of_resolve {target : CallTarget} (h : b.resolve s target = some r) :
    ∃ key : String, b.routines[key]? = some r := by
  cases target with
  | path path scope => exact exists_key_of_routineAt h
  | construct path scope => exact exists_key_of_routineAt h
  | method receiver name =>
    obtain ⟨type, -, h⟩ := Option.bind_eq_some_iff.1 h
    exact exists_key_of_methodOf h
  | dynamic => cases h

/-- What a path is first declared as, by the units and then by the libraries. -/
def firstNamed (sketches : List Sketch) (libraries : List Library) (key : String) :
    Option RoutineName :=
  (names sketches libraries).find? fun n => pathKey n.path = key

theorem pathKey_of_firstNamed {key : String} {n : RoutineName}
    (h : firstNamed sketches libraries key = some n) : pathKey n.path = key := by
  simpa using List.find?_some h

theorem firstNamed_of_getElem? (hplain : ∀ s ∈ sketches, s.ReturnsPlain) {key : String}
    (h : (build sketches libraries).routines[key]? = some r) :
    firstNamed sketches libraries key = some r.name := by
  rw [firstNamed, ← map_name_routines_build hplain, h]
  rfl

theorem firstNamed_eq_none (hplain : ∀ s ∈ sketches, s.ReturnsPlain) {key : String}
    (h : (build sketches libraries).routines[key]? = none) :
    firstNamed sketches libraries key = none := by
  rw [firstNamed, ← map_name_routines_build hplain, h]
  rfl

/-! ## Types -/

/-- Return types of routines are known types, so a chain of calls leads from one to the next. -/
theorem contains_of_typeOf (hplain : ∀ s ∈ sketches, s.ReturnsPlain) {hint : TypeHint}
    (h : (build sketches libraries).typeOf s hint = some type) :
    (build sketches libraries).types.contains (pathKey type) := by
  cases hint with
  | named path scope => exact contains_of_typeAt h
  | unknown => cases h
  | returnOf target =>
    cases hr : (build sketches libraries).resolve s target with
    | some r =>
      obtain ⟨key, hkey⟩ := exists_key_of_resolve hr
      rw [getElem?_routines_build hplain] at hkey
      have hreturns : r.returns = some type := by simpa [typeOf, hr] using h
      exact contains_of_mem_listed hplain (List.mem_of_find?_eq_some hkey) hreturns
    | none =>
      -- Only a value that is built has a type without a routine.
      cases target with
      | construct path scope =>
        have htype : (build sketches libraries).typeAt s path scope = some type := by
          simpa [typeOf, hr] using h
        exact contains_of_typeAt htype
      | _ => simp [typeOf, hr] at h

theorem mem_typeKeys_of_typeOf (hplain : ∀ s ∈ sketches, s.ReturnsPlain) {hint : TypeHint}
    (h : (build sketches libraries).typeOf s hint = some type) :
    pathKey type ∈ sketches.flatMap Sketch.typeKeys ++ libraries.flatMap Library.ownerKeys := by
  have hcontains := contains_of_typeOf hplain h
  rw [(build_eq hplain libraries).1, contains_types_typed] at hcontains
  exact hcontains

/-! ## Methods -/

/-- Repetitions do not matter to the first that is found. -/
theorem findSome?_eraseDups {α : Type} (f : List String → Option α) (xs : List (List String)) :
    xs.eraseDups.findSome? f = xs.findSome? f := by
  induction xs using List.reverseRecOn with
  | nil => rfl
  | append_singleton xs x ih =>
    rw [eraseDups_concat, List.findSome?_append]
    split
    · next hx =>
      rw [ih]
      cases hfound : xs.findSome? f with
      | some a => rfl
      | none => simp [List.findSome?_eq_none_iff.1 hfound x hx]
    · rw [List.findSome?_append, ih]

/-- By the declarations, the routine `n` is the method `name` of a type with these traits: it is the
type's own, or if the type has none, that of the first trait that has one. -/
inductive DeclaresMethod (sketches : List Sketch) (libraries : List Library)
    (traits : List (List String)) (type : List String) (name : String) (n : RoutineName) : Prop
  | own : firstNamed sketches libraries (pathKey (type ++ [name])) = some n →
      DeclaresMethod sketches libraries traits type name n
  | inherited {before after : List (List String)} {trait : List String} :
      firstNamed sketches libraries (pathKey (type ++ [name])) = none →
      traits = before ++ trait :: after →
      (∀ t ∈ before, firstNamed sketches libraries (pathKey (t ++ [name])) = none) →
      firstNamed sketches libraries (pathKey (trait ++ [name])) = some n →
      DeclaresMethod sketches libraries traits type name n

/-- The traits of a type by the impl blocks of all units, in their order. -/
def traitsOf (b : Bindings) (sketches : List Sketch) (type : List String) : List (List String) :=
  traitsAt (pathKey type) (sketches.flatMap b.implemented)

theorem declaresMethod_of_methodOf (hplain : ∀ s ∈ sketches, s.ReturnsPlain)
    (h : (build sketches libraries).methodOf type name = some r) :
    DeclaresMethod sketches libraries ((build sketches libraries).traitsOf sketches type) type name
      r.name := by
  unfold methodOf at h
  split at h
  · next own hown =>
    cases h
    exact .own (firstNamed_of_getElem? hplain hown)
  · next hnone =>
    rw [getD_traits_build hplain, findSome?_eraseDups] at h
    obtain ⟨before, trait, after, hsplit, htrait, hbefore⟩ := List.findSome?_eq_some_iff.1 h
    refine .inherited (firstNamed_eq_none hplain hnone) hsplit (fun t ht => ?_)
      (firstNamed_of_getElem? hplain htrait)
    exact firstNamed_eq_none hplain (hbefore t ht)

end Calligraph.Bindings
