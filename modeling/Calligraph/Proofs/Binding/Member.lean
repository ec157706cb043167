import Calligraph.Proofs.Binding.Build

/-!
# Members by path and by method

`T::m(x)` and `x.m()` look for the routine `m` of the type `T` on two ways. A method call settles
what `T` means first and then asks that type and its traits. A path asks everything that `T` may
mean for a routine `m` of its own, and only if there is none the traits of the type that `T` means.
So another owner can take the call away from the traits of the type (`Bindings.resolve_member`), as
it does in `Bindings.shadowed`.
-/

namespace Calligraph.Bindings

variable {b : Bindings} {s : Sketch} {here : Scope} {owner type : List String} {scope : Nat}
  {name : String}

/-- The routine `name` of the first of some owners that has one of its own. -/
def ownIn (b : Bindings) (owners : List (List String)) (name : String) : Option BoundRoutine :=
  owners.findSome? fun c => b.routines[pathKey (c ++ [name])]?

theorem find?_of_typeAt (hscope : s.scopes[scope]? = some here)
    (h : b.typeAt s owner scope = some type) :
    ((here.candidates owner).find? fun c => b.types.contains (pathKey c)) = some type := by
  rw [typeAt, hscope] at h
  exact h

theorem scope_of_typeAt (h : b.typeAt s owner scope = some type) :
    ∃ here, s.scopes[scope]? = some here := by
  obtain ⟨here, hscope, -⟩ := Option.bind_eq_some_iff.1 h
  exact ⟨here, hscope⟩

theorem ne_nil_of_typeAt (h : b.typeAt s owner scope = some type) : owner ≠ [] := by
  obtain ⟨here, hscope⟩ := scope_of_typeAt h
  have hfind := find?_of_typeAt hscope h
  rintro rfl
  cases hfind

/-- A path to a member asks the owners that it may mean, and then the type that its owner means. -/
theorem routineAt_concat (hscope : s.scopes[scope]? = some here) (hne : owner ≠ [])
    (hstops : StopsClimbing owner [name]) :
    b.routineAt s (owner ++ [name]) scope =
      (b.ownIn (here.candidates owner) name).or
        ((b.typeAt s owner scope).bind fun type => b.methodOf type name) := by
  have hcandidates : here.candidates (owner ++ [name]) =
      (here.candidates owner).map (· ++ [name]) :=
    here.candidates_append hne hstops
  have hfind : b.declaredIn (here.candidates (owner ++ [name])) =
      b.ownIn (here.candidates owner) name := by
    rw [declaredIn, hcandidates, List.findSome?_map]
    rfl
  simp only [routineAt, hscope, Option.bind_eq_bind, Option.bind_some, hfind,
    List.dropLast_concat, List.getLast?_concat]
  cases hown : b.ownIn (here.candidates owner) name with
  | some r => rfl
  | none => simp [hne]

theorem routineAt_member (hscope : s.scopes[scope]? = some here)
    (htype : b.typeAt s owner scope = some type) (hname : name ≠ "super") :
    b.routineAt s (owner ++ [name]) scope =
      (b.ownIn (here.candidates owner) name).or (b.methodOf type name) := by
  rw [routineAt_concat hscope (ne_nil_of_typeAt htype) (.of_ne hname owner), htype]
  rfl

theorem methodOf_of_own {r : BoundRoutine} (h : b.routines[pathKey (type ++ [name])]? = some r) :
    b.methodOf type name = some r := by
  rw [methodOf, h]

/-- An owner that is asked before the type of this name is no type itself. -/
theorem contains_eq_false_of_before {before after : List (List String)} {c : List String}
    (hfind : ((before ++ c :: after).find? fun c => b.types.contains (pathKey c)) = some type)
    (hc : c ≠ type) (hbefore : type ∉ before) : b.types.contains (pathKey c) = false := by
  by_contra hcontains
  rw [Bool.not_eq_false] at hcontains
  have hnext : ((c :: after).find? fun c => b.types.contains (pathKey c)) = some c :=
    List.find?_cons_of_pos hcontains
  rw [List.find?_append, hnext] at hfind
  cases hearlier : before.find? fun c => b.types.contains (pathKey c) with
  | none =>
    rw [hearlier] at hfind
    exact hc (Option.some.inj hfind)
  | some found =>
    rw [hearlier] at hfind
    obtain rfl : found = type := Option.some.inj hfind
    exact hbefore (List.mem_of_find?_eq_some hearlier)

/-- What another owner has to be like to take the call of a member away from the type. -/
structure Diverts (b : Bindings) (type : List String) (name : String) (c : List String)
    (r : BoundRoutine) : Prop where
  ne : c ≠ type
  own : b.routines[pathKey (c ++ [name])]? = some r
  /-- The type has no such routine of its own, or the other owner is no type but a module. -/
  unseen : b.routines[pathKey (type ++ [name])]? = none ∨ b.types.contains (pathKey c) = false

theorem exists_diverts {r : BoundRoutine} (hscope : s.scopes[scope]? = some here)
    (htype : b.typeAt s owner scope = some type)
    (hown : b.ownIn (here.candidates owner) name = some r) (hne : b.methodOf type name ≠ some r) :
    ∃ c ∈ here.candidates owner, b.Diverts type name c r := by
  obtain ⟨before, c, after, hsplit, hc, hnone⟩ := List.findSome?_eq_some_iff.1 hown
  have hother : c ≠ type := by
    rintro rfl
    exact hne (methodOf_of_own hc)
  refine ⟨c, by simp [hsplit], hother, hc, ?_⟩
  cases htypeOwn : b.routines[pathKey (type ++ [name])]? with
  | none => exact .inl rfl
  | some own =>
    -- The type has a routine of its own, so it is not among the owners asked before `c`.
    have hbefore : type ∉ before := by
      intro hmem
      have hnot := hnone type hmem
      rw [htypeOwn] at hnot
      cases hnot
    have hfind := find?_of_typeAt hscope htype
    rw [hsplit] at hfind
    exact .inr (contains_eq_false_of_before hfind hother hbefore)

/-- **Where members by path and by method part.** A path to a member of a type means the routine of
the first owner that has one of its own, and else what the method of the type means. So the two are
the same just if the method of the type is the routine of that owner, as it is if only the type can
have one. If they are not the same, that owner is another than the type: the type has no such
routine of its own, or the owner is a module that is asked before. -/
theorem resolve_member (htype : b.typeAt s owner scope = some type) (hname : name ≠ "super") :
    let byPath := b.resolve s (.path (owner ++ [name]) scope)
    let byMethod := b.resolve s (.method (.named owner scope) name)
    ∃ here, s.scopes[scope]? = some here ∧
      byPath = (b.ownIn (here.candidates owner) name).or byMethod ∧
      (byPath = byMethod ↔
        ∀ r, b.ownIn (here.candidates owner) name = some r → byMethod = some r) ∧
      ((∀ c ∈ here.candidates owner, c ≠ type → b.routines[pathKey (c ++ [name])]? = none) →
        byPath = byMethod) ∧
      (byPath ≠ byMethod →
        ∃ c ∈ here.candidates owner, ∃ r, b.Diverts type name c r ∧ byPath = some r) := by
  intro byPath byMethod
  obtain ⟨here, hscope⟩ := scope_of_typeAt htype
  have hmethod : byMethod = b.methodOf type name := by
    show (b.typeAt s owner scope).bind _ = _
    rw [htype]
    rfl
  have hpath : byPath = (b.ownIn (here.candidates owner) name).or byMethod := by
    rw [hmethod]
    exact routineAt_member hscope htype hname
  have hdiverted (hne : byPath ≠ byMethod) :
      ∃ c ∈ here.candidates owner, ∃ r, b.Diverts type name c r ∧ byPath = some r := by
    cases hown : b.ownIn (here.candidates owner) name with
    | none =>
      rw [hown] at hpath
      exact absurd hpath hne
    | some r =>
      rw [hown] at hpath
      have hother : b.methodOf type name ≠ some r := by
        intro heq
        exact hne (hpath.trans (hmethod.trans heq).symm)
      obtain ⟨c, hmem, hc⟩ := exists_diverts hscope htype hown hother
      exact ⟨c, hmem, r, hc, hpath⟩
  refine ⟨here, hscope, hpath, ?_, fun halone => ?_, hdiverted⟩
  · rw [hpath]
    cases b.ownIn (here.candidates owner) name with
    | none => simp
    | some r => simp [eq_comm]
  · by_contra hne
    obtain ⟨c, hmem, r, hc, -⟩ := hdiverted hne
    have hnone := halone c hmem hc.ne
    rw [hc.own] at hnone
    cases hnone

/-- A type `T` with a method `m`, and a module with a type `T` of its own that has `m` by a trait.
In the module, `T::m(t)` and `t.m()` are called. -/
def shadowed : List Item :=
  let type : Ty := .path (.plain false [.plain "T"])
  let method : Member := .function ⟨"m", ⟨2, 12⟩, {}, [.receiver], none⟩ (some [])
  let value : Expr := .path (.plain false [.plain "t"]) []
  let byPath : Expr :=
    .call ⟨7, 18⟩ [] (.path (.plain false [.plain "T", .plain "m"]) []) [value]
  [.record "T",
    .implBlock {} none type [method],
    .module "x" ⟨3, 4⟩ [
      .record "T",
      .traitDef "Tr" {} [method],
      .implBlock {} (some (.plain false [.plain "Tr"])) type [],
      .function ⟨"f", ⟨7, 7⟩, {}, [.typed (.name "t" none) (.reference none false type)], none⟩
        [.expr byPath, .expr (.method ⟨7, 29⟩ [] value "m" [])]]]

/-- In the module both calls name a member of the type `x::T`, but the path leads to the other
type. -/
theorem resolve_shadowed :
    let s := Sketch.ofItems [] shadowed
    let b := build [s] []
    s.callAt 5 = some (.path ["T", "m"] 2) ∧
      s.callAt 6 = some (.method (.named ["T"] 2) "m") ∧
      b.typeAt s ["T"] 2 = some ["x", "T"] ∧
      (b.resolve s (.path ["T", "m"] 2)).map BoundRoutine.name = some ⟨["T", "m"], []⟩ ∧
      (b.resolve s (.method (.named ["T"] 2) "m")).map BoundRoutine.name =
        some ⟨["x", "Tr", "m"], []⟩ := by
  decide +kernel

theorem resolve_member_shadowed :
    let s := Sketch.ofItems [] shadowed
    let b := build [s] []
    b.typeAt s ["T"] 2 = some ["x", "T"] ∧ "m" ≠ "super" ∧
      ∃ c r, b.Diverts ["x", "T"] "m" c r ∧ b.resolve s (.path ["T", "m"] 2) = some r := by
  intro s b
  have htype : b.typeAt s ["T"] 2 = some ["x", "T"] := by decide +kernel
  have hname : "m" ≠ "super" := by decide
  obtain ⟨here, -, -, -, -, hdiverted⟩ := resolve_member htype hname
  obtain ⟨c, -, r, hc, hr⟩ := hdiverted (by decide +kernel)
  exact ⟨htype, hname, c, r, hc, hr⟩

end Calligraph.Bindings
