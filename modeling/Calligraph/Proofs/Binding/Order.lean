import Calligraph.Proofs.Binding.Build

/-!
# The order of units

Bindings that answer alike to every key resolve all calls alike (`Bindings.Same.resolve_eq`). The
bindings of units that are apart answer alike in whatever order the units stand
(`Bindings.same_build_of_perm`).
-/

namespace Calligraph

/-- If only one element gives anything, it does not matter in which order the elements stand. -/
theorem flatMap_eq_of_perm {α β : Type} {f : α → List β} {xs ys : List α} (h : xs.Perm ys)
    (hf : ∀ x ∈ xs, ∀ y ∈ xs, f x ≠ [] → f y ≠ [] → x = y) : xs.flatMap f = ys.flatMap f := by
  induction h with
  | nil => rfl
  | cons x _ ih =>
    rw [List.flatMap_cons, List.flatMap_cons, ih fun y hy z hz =>
      hf y (List.mem_cons_of_mem _ hy) z (List.mem_cons_of_mem _ hz)]
  | swap x y xs =>
    have hswap : f y ++ f x = f x ++ f y := by
      by_cases hx : f x = []
      · simp [hx]
      by_cases hy : f y = []
      · simp [hy]
      rw [hf x (by simp) y (by simp) hx hy]
    simp only [List.flatMap_cons, ← List.append_assoc, hswap]
  | trans hxy _ ihx ihy =>
    exact (ihx hf).trans (ihy fun y hy z hz => hf y (hxy.mem_iff.2 hy) z (hxy.mem_iff.2 hz))

/-- Two units that declare no routine with the same path, nor traits of the same type. -/
structure Sketch.Apart (s t : Sketch) : Prop where
  routines : ∀ d ∈ s.routines, ∀ e ∈ t.routines, pathKey d.path ≠ pathKey e.path
  impls : ∀ d ∈ s.impls, ∀ e ∈ t.impls, d.trait.isSome → e.trait.isSome →
    pathKey d.selfType ≠ pathKey e.selfType

namespace Bindings

/-! ## Bindings that answer alike -/

/-- The tables of two bindings hold the same. -/
structure Same (b c : Bindings) : Prop where
  types : ∀ key, b.types.contains key = c.types.contains key
  traits : ∀ key : String, b.traits[key]? = c.traits[key]?
  routines : ∀ key : String, b.routines[key]? = c.routines[key]?

namespace Same

variable {b c : Bindings}

theorem typeAt_eq (h : b.Same c) (s : Sketch) (path : List String) (scope : Nat) :
    b.typeAt s path scope = c.typeAt s path scope :=
  typeAt_eq_of_types (funext h.types) s path scope

theorem methodOf_eq (h : b.Same c) (type : List String) (name : String) :
    b.methodOf type name = c.methodOf type name := by
  simp only [methodOf, Std.TreeMap.getD_eq_getD_getElem?, h.traits, h.routines]

theorem routineAt_eq (h : b.Same c) (s : Sketch) (path : List String) (scope : Nat) :
    b.routineAt s path scope = c.routineAt s path scope := by
  simp only [routineAt, declaredIn, h.routines, h.typeAt_eq, h.methodOf_eq]

mutual

theorem resolve_eq (h : b.Same c) (s : Sketch) :
    (target : CallTarget) → b.resolve s target = c.resolve s target
  | .path path scope => h.routineAt_eq s path scope
  | .construct path scope => h.routineAt_eq s path scope
  | .method receiver name => by
    simp only [resolve, typeOf_eq h s receiver, h.methodOf_eq]
  | .dynamic => rfl

theorem typeOf_eq (h : b.Same c) (s : Sketch) :
    (hint : TypeHint) → b.typeOf s hint = c.typeOf s hint
  | .named path scope => h.typeAt_eq s path scope
  | .returnOf target => by
    have htarget := resolve_eq h s target
    cases target with
    | construct path scope => simp only [typeOf, htarget, h.typeAt_eq]
    | _ => simp only [typeOf, htarget]
  | .unknown => rfl

end

theorem isCall_eq (h : b.Same c) (s : Sketch) (target : CallTarget) :
    b.isCall s target = c.isCall s target := by
  cases target with
  | construct path scope => simp only [isCall, h.resolve_eq]
  | _ => rfl

end Same

/-! ## Traits are there if there are any -/

theorem getElem?_addPair_ne {b : Bindings} {key : String} (h : b.traits[key]? ≠ some [])
    (p : String × List String) : (b.addPair p).traits[key]? ≠ some [] := by
  rw [addPair, addTrait]
  split
  · exact h
  · rw [Std.TreeMap.getElem?_insert]
    split
    · simp
    · exact h

variable {sketches others : List Sketch} {libraries : List Library}

theorem getElem?_traits_build_ne (hplain : ∀ s ∈ sketches, s.ReturnsPlain)
    (libraries : List Library) (key : String) :
    (build sketches libraries).traits[key]? ≠ some [] := by
  obtain ⟨-, hbuild⟩ := build_eq hplain libraries
  rw [hbuild, (foldl_addRoutine_keeps ..).2]
  refine List.foldlRecOn (motive := fun b => b.traits[key]? ≠ some []) _ addPair ?_
    fun b hb p _ => getElem?_addPair_ne hb p
  simp [(typed_keeps sketches libraries).2]

theorem getElem?_traits_build (hplain : ∀ s ∈ sketches, s.ReturnsPlain) (key : String) :
    (build sketches libraries).traits[key]? =
      (some ((build sketches libraries).traits.getD key [])).filter (· ≠ []) := by
  have hne := getElem?_traits_build_ne hplain libraries key
  rw [Std.TreeMap.getD_eq_getD_getElem?]
  cases hget : (build sketches libraries).traits[key]? with
  | none => rfl
  | some traits =>
    have htraits : traits ≠ [] := fun hnil => hne (hget.trans (congrArg some hnil))
    simp [Option.filter, htraits]

/-! ## Units in another order -/

theorem contains_types_of_perm (hplain : ∀ s ∈ sketches, s.ReturnsPlain)
    (hperm : sketches.Perm others) (libraries : List Library) (key : String) :
    (build sketches libraries).types.contains key =
      (build others libraries).types.contains key := by
  have hplain' (s : Sketch) (hs : s ∈ others) : s.ReturnsPlain := hplain s (hperm.mem_iff.2 hs)
  rw [Bool.eq_iff_iff, (build_eq hplain libraries).1, (build_eq hplain' libraries).1,
    contains_types_typed, contains_types_typed, List.mem_append, List.mem_append,
    (hperm.flatMap_right Sketch.typeKeys).mem_iff]

theorem exists_impl_of_traitsAt {b : Bindings} {s : Sketch} {key : String}
    (h : traitsAt key (b.implemented s) ≠ []) :
    ∃ d ∈ s.impls, d.trait.isSome ∧ pathKey d.selfType = key := by
  obtain ⟨trait, htrait⟩ := List.exists_mem_of_ne_nil _ h
  obtain ⟨p, hp, -⟩ := List.mem_map.1 htrait
  obtain ⟨hp, hkey⟩ := List.mem_filter.1 hp
  obtain ⟨d, hd, htraitOf⟩ := List.mem_filterMap.1 hp
  obtain ⟨found, hfound, rfl⟩ := Option.map_eq_some_iff.1 htraitOf
  obtain ⟨path, hpath, -⟩ := Option.bind_eq_some_iff.1 hfound
  exact ⟨d, Array.mem_toList_iff.1 hd, by simp [hpath], of_decide_eq_true hkey⟩

theorem exists_routine_of_filter {b : Bindings} {s : Sketch} {key : String}
    (h : ((b.declared s).filter fun r => pathKey r.name.path = key) ≠ []) :
    ∃ d ∈ s.routines, pathKey d.path = key := by
  obtain ⟨r, hr⟩ := List.exists_mem_of_ne_nil _ h
  obtain ⟨hr, hkey⟩ := List.mem_filter.1 hr
  obtain ⟨d, hd, rfl⟩ := List.mem_map.1 hr
  exact ⟨d, Array.mem_toList_iff.1 hd, of_decide_eq_true hkey⟩

theorem traitsAt_of_perm (hapart : ∀ s ∈ sketches, ∀ t ∈ sketches, s ≠ t → s.Apart t)
    (hperm : sketches.Perm others) (b : Bindings) (key : String) :
    traitsAt key (sketches.flatMap b.implemented) =
      traitsAt key (others.flatMap b.implemented) := by
  have hflat (sketches : List Sketch) : traitsAt key (sketches.flatMap b.implemented) =
      sketches.flatMap fun s => traitsAt key (b.implemented s) := by
    simp only [traitsAt, List.filter_flatMap, List.map_flatMap]
  rw [hflat, hflat]
  refine flatMap_eq_of_perm hperm fun s hs t ht hs' ht' => ?_
  obtain ⟨d, hd, hdtrait, hdkey⟩ := exists_impl_of_traitsAt hs'
  obtain ⟨e, he, hetrait, hekey⟩ := exists_impl_of_traitsAt ht'
  by_contra hne
  exact (hapart s hs t ht hne).impls d hd e he hdtrait hetrait (hdkey.trans hekey.symm)

theorem find?_declared_of_perm (hapart : ∀ s ∈ sketches, ∀ t ∈ sketches, s ≠ t → s.Apart t)
    (hperm : sketches.Perm others) (b : Bindings) (key : String) :
    ((sketches.flatMap b.declared).find? fun r => pathKey r.name.path = key) =
      (others.flatMap b.declared).find? fun r => pathKey r.name.path = key := by
  rw [← List.head?_filter, ← List.head?_filter, List.filter_flatMap, List.filter_flatMap]
  refine congrArg List.head? (flatMap_eq_of_perm hperm fun s hs t ht hs' ht' => ?_)
  obtain ⟨d, hd, hdkey⟩ := exists_routine_of_filter hs'
  obtain ⟨e, he, hekey⟩ := exists_routine_of_filter ht'
  by_contra hne
  exact (hapart s hs t ht hne).routines d hd e he (hdkey.trans hekey.symm)

/-- The order of units that are apart does not matter to the bindings. -/
theorem same_build_of_perm (hplain : ∀ s ∈ sketches, s.ReturnsPlain)
    (hapart : ∀ s ∈ sketches, ∀ t ∈ sketches, s ≠ t → s.Apart t) (hperm : sketches.Perm others)
    (libraries : List Library) : (build sketches libraries).Same (build others libraries) := by
  have hplain' (s : Sketch) (hs : s ∈ others) : s.ReturnsPlain := hplain s (hperm.mem_iff.2 hs)
  have htypes := contains_types_of_perm hplain hperm libraries
  have hcontains := funext htypes
  refine ⟨htypes, fun key => ?_, fun key => ?_⟩
  · rw [getElem?_traits_build hplain, getElem?_traits_build hplain', getD_traits_build hplain,
      getD_traits_build hplain', ← implemented_eq_of_types hcontains,
      traitsAt_of_perm hapart hperm]
  · have hdeclared : others.flatMap (build others libraries).declared =
        others.flatMap (build sketches libraries).declared :=
      List.flatMap_congr fun s hs => (declared_eq_of_types hcontains (hplain' s hs)).symm
    rw [getElem?_routines_build hplain, getElem?_routines_build hplain', listed, listed,
      List.find?_append, List.find?_append, hdeclared, ← described_eq_of_types hcontains,
      find?_declared_of_perm hapart hperm]

end Bindings

end Calligraph
