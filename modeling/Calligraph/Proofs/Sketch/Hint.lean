import Mathlib.Data.List.Basic
import Calligraph.Proofs.Sketch.Telling

/-!
# What hints say

A hint comes from a type as written, from the bounds of a type parameter or from a name that was
bound before. `Place.Tells` is a property that all hints have which a place can give; it is kept
where type parameters are added, and the names that patterns bind have it too. The scopes that
hints and targets name are bounded that way (`TypeHint.Within`), and so are the forms that the hint
of a type can have (`TypeHint.IsPlain`).
-/

namespace Calligraph

variable {Q : TypeHint → Prop}

/-! ## Hints of types -/

/-- The hints of all names have the property. -/
def Frame.All (Q : TypeHint → Prop) (frame : Frame) : Prop :=
  ∀ x ∈ frame, Q x.2

theorem Frame.All.nil : Frame.All Q [] :=
  fun _ hx => nomatch hx

theorem Frame.All.cons {frame : Frame} (h : frame.All Q) {hint : TypeHint} (hq : Q hint)
    (name : String) : Frame.All Q ((name, hint) :: frame) := by
  intro x hx
  rcases List.mem_cons.1 hx with rfl | hx
  · exact hq
  · exact h x hx

theorem Frame.All.of_lookup {frame : Frame} (h : frame.All Q) {name : String} {hint : TypeHint}
    (hn : frame.lookup name = some hint) : Q hint := by
  obtain ⟨before, after, rfl, -⟩ := List.lookup_eq_some_iff.1 hn
  exact h (name, hint) (by simp)

theorem Frame.of_find? {frames : List Frame} (h : ∀ frame ∈ frames, frame.All Q) {name : String}
    {hint : TypeHint} (hn : Frame.find? frames name = some hint) : Q hint := by
  obtain ⟨frame, hmem, hlookup⟩ := List.exists_of_findSome?_eq_some hn
  exact (h frame hmem).of_lookup hlookup

/-- All hints that a place can give have the property. -/
structure Place.Tells (Q : TypeHint → Prop) (place : Place) : Prop where
  unknown : Q .unknown
  named : ∀ path, Q (.named path place.scope)
  typeParams : ∀ frame ∈ place.typeParams, frame.All Q

namespace Place.Tells

variable {place : Place}

theorem mono {R : TypeHint → Prop} (h : place.Tells Q) (hr : ∀ hint, Q hint → R hint) :
    place.Tells R where
  unknown := hr _ h.unknown
  named path := hr _ (h.named path)
  typeParams frame hf x hx := hr _ (h.typeParams frame hf x hx)

theorem boundHint (h : place.Tells Q) (bounds : List Bound) : Q (place.boundHint bounds) := by
  rcases Place.boundHint_cases bounds with hnone | ⟨path, hpath⟩
  · rw [hnone]
    exact h.unknown
  · rw [hpath]
    exact h.named path.names

theorem hint (h : place.Tells Q) (ty : Ty) : Q (ty.hint place) := by
  have hparam {p : Path} {found : TypeHint}
      (hfound : p.ident?.bind (Frame.find? place.typeParams) = some found) : Q found := by
    obtain ⟨name, -, hname⟩ := Option.bind_eq_some_iff.1 hfound
    exact Frame.of_find? h.typeParams hname
  induction ty using Ty.hint_induct with
  | reference life mutable target ih => exact ih
  | paren inner ih => exact ih
  | named rooted segments hnone =>
    simp only [Ty.hint, hnone]
    split
    · next hfound => exact hparam hfound
    · exact h.named _
  | pointer rooted segments inner hinner ih =>
    simp only [Ty.hint, hinner]
    split
    · next hfound => exact hparam hfound
    · exact ih
  | implTrait bounds => exact h.boundHint bounds
  | dynTrait bounds => exact h.boundHint bounds
  | other ty hty =>
    rw [hty]
    exact h.unknown

theorem frame (h : place.Tells Q) (generics : Generics) : (generics.frame place).All Q := by
  have hown : Frame.All Q (generics.params.reverse.map fun x => (x.1, place.boundHint x.2)) := by
    intro x hx
    obtain ⟨param, -, rfl⟩ := List.mem_map.1 hx
    exact h.boundHint param.2
  unfold Generics.frame
  -- Each predicate of the `where` clause adds the hint of its bounds or nothing.
  refine List.foldlRecOn _ _ hown fun frame hframe predicate _ => ?_
  obtain ⟨ty, bounds⟩ := predicate
  have hadded (name : String) := hframe.cons (h.boundHint bounds) name
  dsimp only
  split
  · split
    · split
      · exact hadded _
      · exact hadded _
      · exact hframe
    · exact hframe
  · exact hframe

theorem under (h : place.Tells Q) (generics : Generics) : (place.under generics).Tells Q where
  unknown := h.unknown
  named := h.named
  typeParams := List.forall_mem_cons.2 ⟨h.frame generics, h.typeParams⟩

/-! ## Hints of names -/

mutual

theorem bind (h : place.Tells Q) : (pat : Pat) → {hint : TypeHint} → Q hint → {frame : Frame} →
    frame.All Q → (pat.bind place hint frame).All Q
  | .name n none, _, hq, _, hf => hf.cons hq n
  | .name n (some sub), _, hq, _, hf => (bind h sub h.unknown hf).cons hq n
  | .typed pat ty, _, _, _, hf => bind h pat (h.hint ty) hf
  | .inner pat, _, hq, _, hf => bind h pat hq hf
  | .parts pats, _, _, _, hf => bindAll h pats hf
  | .blank, _, _, _, hf => hf

theorem bindAll (h : place.Tells Q) : (pats : List Pat) → {frame : Frame} → frame.All Q →
    (Pat.bindAll place frame pats).All Q
  | [], _, hf => hf
  | p :: rest, _, hf => bindAll h rest (bind h p h.unknown hf)

end

theorem signature (h : place.Tells Q) (sig : Signature) : (sig.frame place).All Q := by
  unfold Signature.frame
  refine List.foldlRecOn _ _ .nil fun frame hframe param _ => ?_
  cases param with
  | receiver => exact hframe
  | typed pat ty => exact h.bind pat (h.hint ty) hframe

end Place.Tells

/-! ## Scopes -/

mutual

/-- The scopes that a hint names, to any depth. -/
def TypeHint.scopes : TypeHint → List Nat
  | .named _ scope => [scope]
  | .returnOf target => target.scopes
  | .unknown => []

/-- The scopes that a target names, to any depth. -/
def CallTarget.scopes : CallTarget → List Nat
  | .path _ scope => [scope]
  | .construct _ scope => [scope]
  | .method receiver _ => receiver.scopes
  | .dynamic => []

end

/-- The hint names scopes below `n` only. -/
def TypeHint.Within (n : Nat) (hint : TypeHint) : Prop :=
  ∀ i ∈ hint.scopes, i < n

/-- The target names scopes below `n` only. -/
def CallTarget.Within (n : Nat) (target : CallTarget) : Prop :=
  ∀ i ∈ target.scopes, i < n

theorem TypeHint.Within.mono {hint : TypeHint} {m n : Nat} (h : hint.Within m) (hmn : m ≤ n) :
    hint.Within n :=
  fun i hi => Nat.lt_of_lt_of_le (h i hi) hmn

theorem Frame.All.within_mono {frame : Frame} {m n : Nat} (h : frame.All (TypeHint.Within m))
    (hmn : m ≤ n) : frame.All (TypeHint.Within n) :=
  fun x hx => (h x hx).mono hmn

/-- The hint is that of a path or says nothing: it does not depend on what a call returns. -/
def TypeHint.IsPlain : TypeHint → Prop
  | .named .. => True
  | .returnOf _ => False
  | .unknown => True

/-- The hint is that of a path in a scope below `n`, or says nothing. -/
def TypeHint.Settled (n : Nat) (hint : TypeHint) : Prop :=
  hint.IsPlain ∧ hint.Within n

/-- Where the scope and the type parameters name scopes below `n`, all types do. -/
theorem Place.tells_settled {place : Place} {n : Nat} (hscope : place.scope < n)
    (hparams : ∀ frame ∈ place.typeParams, frame.All (TypeHint.Settled n)) :
    place.Tells (TypeHint.Settled n) where
  unknown := ⟨trivial, fun _ hi => nomatch hi⟩
  named _ := ⟨trivial, fun _ hi => List.mem_singleton.1 hi ▸ hscope⟩
  typeParams := hparams

section Targets

variable {place : Place} {locals : List Frame} {n : Nat}

theorem Path.within_target (hscope : place.scope < n) (p : Path) :
    (p.target place locals).Within n := by
  have hnamed (i : Nat) (hi : i ∈ [place.scope]) : i < n := List.mem_singleton.1 hi ▸ hscope
  rcases p.target_cases place locals with h | ⟨names, h | h⟩
  · rw [h]
    exact fun _ hi => nomatch hi
  · rw [h]
    exact hnamed
  · rw [h]
    exact hnamed

theorem Expr.within_target (hscope : place.scope < n) (e : Expr) :
    (e.target place locals).Within n := by
  induction e using Expr.target_induct with
  | path p held => exact p.within_target hscope
  | paren inner ih => exact ih
  | attributed attrs inner ih => exact ih
  | other e he =>
    rw [he]
    exact fun _ hi => nomatch hi

/-- The hint of an expression names the scopes of its types and of the names in it. -/
theorem Expr.within_hint (h : place.Tells (TypeHint.Within n)) (hscope : place.scope < n)
    (hlocals : ∀ frame ∈ locals, frame.All (TypeHint.Within n)) (e : Expr) :
    (e.hint place locals).Within n := by
  induction e using Expr.hint_induct with
  | path rooted segments held =>
    simp only [hint]
    split
    · split
      · next found => exact Frame.of_find? hlocals found
      · exact h.named _
    · exact h.named _
  | call pos attrs func args =>
    have htarget : (func.target place locals).Within n := func.within_target hscope
    simp only [hint]
    split
    · next heq => rw [heq] at htarget; exact htarget
    · next heq => rw [heq] at htarget; exact htarget
    · exact h.unknown
  | method pos attrs receiver name args ih => exact ih
  | construct p parts => exact h.named p.names
  | paren inner ih => exact ih
  | attributed attrs inner ih => exact ih
  | borrow inner ih => exact ih
  | cast inner ty held => exact h.hint ty
  | other e he =>
    rw [he]
    exact h.unknown

end Targets

end Calligraph
