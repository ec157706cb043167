import Mathlib.Data.List.ReduceOption
import Calligraph.Analysis
import Calligraph.Outline
import Calligraph.Proofs.Project.Load

/-!
# The failure that is told

Taking in a project fails if one of its sources or references does, and the failure that is told is
the first one, sources before references. The sources may be taken in side by side: each result goes
to the place of its source (`Slots`), and only when all are there are they looked through in order.
So the failure does not tell in what order the sources were finished.
-/

namespace Calligraph

open List (Forall₂)

/-! ## First failures -/

/-- `x`, with the index `i`, is the first element of `xs` that `f` fails on. -/
structure FirstFailure {α β ε : Type} (f : α → Except ε β) (xs : List α) (i : Nat) (x : α)
    (cause : ε) : Prop where
  getElem?_eq : xs[i]? = some x
  fails : f x = .error cause
  before (j : Nat) (y : α) : j < i → xs[j]? = some y → ∃ b, f y = .ok b

section

variable {α β ε : Type} {f : α → Except ε β} {xs : List α}

theorem FirstFailure.mapM_eq {i : Nat} {x : α} {cause : ε} (h : FirstFailure f xs i x cause) :
    xs.mapM f = .error cause := by
  induction xs generalizing i with
  | nil => simpa using h.getElem?_eq
  | cons y rest ih =>
    rw [List.mapM_cons]
    cases i with
    | zero =>
      obtain rfl : y = x := by simpa using h.getElem?_eq
      rw [h.fails]
      rfl
    | succ i =>
      obtain ⟨b, hb⟩ := h.before 0 y i.succ_pos rfl
      have hrest : FirstFailure f rest i x cause :=
        ⟨h.getElem?_eq, h.fails, fun j z hj hz => h.before (j + 1) z (Nat.succ_lt_succ hj) hz⟩
      rw [hb, ih hrest]
      rfl

/-- Where something fails, something fails first. -/
theorem exists_firstFailure (h : ∃ x ∈ xs, ∀ b, f x ≠ .ok b) :
    ∃ i x cause, FirstFailure f xs i x cause := by
  induction xs with
  | nil => simp at h
  | cons y rest ih =>
    cases hy : f y with
    | error cause =>
      exact ⟨0, y, cause, rfl, hy, fun j _ hj => absurd hj (Nat.not_lt_zero j)⟩
    | ok b =>
      obtain ⟨x, hx, hfails⟩ := h
      have hne : x ≠ y := fun heq => hfails b (heq ▸ hy)
      obtain ⟨i, z, cause, hz⟩ := ih ⟨x, List.mem_of_ne_of_mem hne hx, hfails⟩
      refine ⟨i + 1, z, cause, hz.getElem?_eq, hz.fails, fun j w hj hw => ?_⟩
      cases j with
      | zero =>
        obtain rfl : y = w := by simpa using hw
        exact ⟨b, hy⟩
      | succ j => exact hz.before j w (Nat.lt_of_succ_lt_succ hj) hw

theorem exists_forall₂_iff {R : α → β → Prop} :
    (∃ ys, Forall₂ R xs ys) ↔ ∀ x ∈ xs, ∃ y, R x y := by
  induction xs with
  | nil => simp
  | cons x rest ih => simp [List.forall₂_cons_left_iff, ← ih]

end

namespace Project

variable {fe : FrontEnd} {title : String} {sources : List Source} {references : List Reference}

theorem loadReference_eq_ok_iff {reference : Reference} {library : fe.Library} :
    loadReference fe reference = .ok library ↔ fe.load reference = .ok library := by
  unfold loadReference
  cases fe.load reference <;> simp

theorem exists_load_eq_ok_iff :
    (∃ p, load fe title sources references = .ok p) ↔
      (∀ s ∈ sources, ∃ tree, fe.parse s = .ok tree) ∧
        ∀ r ∈ references, ∃ library, fe.load r = .ok library := by
  have hunits : (∃ units, Forall₂ (fun s u => parseUnit fe s = .ok u) sources units) ↔
      ∀ s ∈ sources, ∃ tree, fe.parse s = .ok tree := by
    simp [exists_forall₂_iff, parseUnit_eq_ok_iff]
  have hlibraries : (∃ libraries, Forall₂ (fun r l => loadReference fe r = .ok l) references
      libraries) ↔ ∀ r ∈ references, ∃ library, fe.load r = .ok library := by
    simp [exists_forall₂_iff, loadReference_eq_ok_iff]
  rw [← hunits, ← hlibraries]
  simp [load_eq_ok_iff]

/-- The first source that fails is told, whatever the references are. -/
theorem load_of_source {i : Nat} {source : Source} {fault : Fault}
    (h : FirstFailure fe.parse sources i source fault) :
    load fe title sources references = .error (.parse source.id fault) := by
  have hunit : FirstFailure (parseUnit fe) sources i source (.parse source.id fault) := by
    refine ⟨h.getElem?_eq, by rw [parseUnit, h.fails], fun j s hj hs => ?_⟩
    obtain ⟨tree, htree⟩ := h.before j s hj hs
    exact ⟨_, parseUnit_eq_ok_iff.2 ⟨tree, htree, rfl⟩⟩
  unfold load
  rw [hunit.mapM_eq]
  rfl

/-- If no source fails, the first reference that fails is told. -/
theorem load_of_reference (hsources : ∀ s ∈ sources, ∃ tree, fe.parse s = .ok tree) {i : Nat}
    {reference : Reference} {fault : Fault}
    (h : FirstFailure fe.load references i reference fault) :
    load fe title sources references = .error (.missingReference reference.name fault) := by
  have hlibrary : FirstFailure (loadReference fe) references i reference
      (.missingReference reference.name fault) := by
    refine ⟨h.getElem?_eq, by rw [loadReference, h.fails], fun j r hj hr => ?_⟩
    obtain ⟨library, hload⟩ := h.before j r hj hr
    exact ⟨library, loadReference_eq_ok_iff.2 hload⟩
  obtain ⟨units, hunits⟩ : ∃ units, Forall₂ (fun s u => parseUnit fe s = .ok u) sources units := by
    simpa [exists_forall₂_iff, parseUnit_eq_ok_iff] using hsources
  unfold load
  rw [mapM_eq_ok_iff.2 hunits, hlibrary.mapM_eq]
  rfl

/-! ## Sources taken in side by side -/

/-- The results that are there so far, each at the index of its source. -/
abbrev Slots (fe : FrontEnd) :=
  List (Option (Except AnalysisError (ParsedUnit fe.Tree)))

namespace Slots

/-- The source with index `i` is finished. -/
def fill (sources : List Source) (slots : Slots fe) (i : Nat) : Slots fe :=
  slots.set i (sources[i]?.map (parseUnit fe))

/-- The results of the sources whose indices are in `done`. -/
def ofDone (fe : FrontEnd) (sources : List Source) (done : List Nat) : Slots fe :=
  sources.mapIdx fun i s => if i ∈ done then some (parseUnit fe s) else none

theorem fill_ofDone (done : List Nat) (i : Nat) :
    (ofDone fe sources done).fill sources i = ofDone fe sources (i :: done) := by
  refine List.ext_getElem? fun j => ?_
  simp only [fill, ofDone, List.getElem?_set, List.getElem?_mapIdx, List.length_mapIdx]
  by_cases hij : i = j
  · subst hij
    cases hs : sources[i]? with
    | none => simpa using hs
    | some s => simp [(List.getElem?_eq_some_iff.1 hs).1]
  · simp [hij, Ne.symm hij]

theorem foldl_fill (order done : List Nat) :
    order.foldl (fill sources) (ofDone fe sources done) =
      ofDone fe sources (order.reverse ++ done) := by
  induction order generalizing done with
  | nil => rfl
  | cons i rest ih => rw [List.foldl_cons, fill_ofDone, ih]; simp

theorem ofDone_nil : ofDone fe sources [] = List.replicate sources.length none := by
  simp [ofDone, List.mapIdx_eq_replicate_iff]

theorem ofDone_eq_map {done : List Nat} (h : ∀ i < sources.length, i ∈ done) :
    ofDone fe sources done = sources.map fun s => some (parseUnit fe s) := by
  refine List.ext_getElem? fun i => ?_
  rw [ofDone, List.getElem?_mapIdx, List.getElem?_map]
  cases hs : sources[i]? with
  | none => rfl
  | some s => simp [h i (List.getElem?_eq_some_iff.1 hs).1]

end Slots

/-- Takes in all sources, which are finished in the order that `order` lists their indices in, then
looks through the results in the order of the sources, and then takes in the references. -/
def loadFinishing (fe : FrontEnd) (name : String) (sources : List Source)
    (references : List Reference) (order : List Nat) : Except AnalysisError (Project fe) := do
  let slots : Slots fe :=
    order.foldl (Slots.fill sources) (List.replicate sources.length none)
  let units ← slots.reduceOption.mapM id
  let libraries ← references.mapM (loadReference fe)
  return .ofUnits fe name units libraries

/-- It does not matter which source is finished when. -/
theorem loadFinishing_eq {order : List Nat} (h : order.Perm (List.range sources.length)) :
    loadFinishing fe title sources references order = load fe title sources references := by
  have hall : ∀ i < sources.length, i ∈ order.reverse ++ [] := fun i hi => by
    simpa using h.mem_iff.2 (List.mem_range.2 hi)
  have hslots : order.foldl (Slots.fill sources) (List.replicate sources.length none) =
      (sources.map (parseUnit fe)).map some := by
    rw [← Slots.ofDone_nil, Slots.foldl_fill, Slots.ofDone_eq_map hall, List.map_map]
    rfl
  have hunits : ((sources.map (parseUnit fe)).map some).reduceOption.mapM id =
      sources.mapM (parseUnit fe) := by
    rw [List.reduceOption, List.filterMap_map]
    simp [List.mapM_map]
  unfold loadFinishing load
  dsimp only
  rw [hslots, hunits]

/-- **The first failure is told, and nothing else.** Whatever the order in which the sources are
finished, a project is there exactly if every source and every reference can be taken in, and then
its units and libraries are those of the sources and the references in their order. Otherwise the
failure is that of the first source that fails, whatever the references are, or else of the first
reference that does, and there is no report. -/
theorem load_first_failure (fe : FrontEnd) (name : String) (sources : List Source)
    (references : List Reference) (order : List Nat)
    (horder : order.Perm (List.range sources.length)) :
    let loaded := loadFinishing fe name sources references order
    let allParse := ∀ s ∈ sources, ∃ tree, fe.parse s = .ok tree
    let allLoad := ∀ r ∈ references, ∃ library, fe.load r = .ok library
    loaded = load fe name sources references ∧
    ((∃ p, loaded = .ok p) ↔ allParse ∧ allLoad) ∧
    (¬ allParse → ∃ i source fault, FirstFailure fe.parse sources i source fault ∧
      loaded = .error (.parse source.id fault)) ∧
    (allParse → ¬ allLoad → ∃ i reference fault,
      FirstFailure fe.load references i reference fault ∧
      loaded = .error (.missingReference reference.name fault)) ∧
    (∀ p, loaded = .ok p → p.name = name ∧
      Forall₂ (fun s u => u.id = s.id ∧ fe.parse s = .ok u.tree) sources p.units ∧
      Forall₂ (fun r l => fe.load r = .ok l) references p.libraries) ∧
    ∀ cause, loaded = .error cause → loaded.map analyze = .error cause := by
  intro loaded allParse allLoad
  have hloaded : loaded = load fe name sources references := loadFinishing_eq horder
  rw [hloaded]
  refine ⟨rfl, exists_load_eq_ok_iff, fun hparse => ?_, fun hparse hload => ?_, fun p hp => ?_,
    fun cause hcause => by rw [hcause]; rfl⟩
  · obtain ⟨i, source, fault, hfirst⟩ := exists_firstFailure
      (by simpa only [allParse, not_forall, not_exists, exists_prop] using hparse)
    exact ⟨i, source, fault, hfirst, load_of_source hfirst⟩
  · obtain ⟨i, reference, fault, hfirst⟩ :=
      exists_firstFailure (by simpa only [allLoad, not_forall, not_exists, exists_prop] using hload)
    exact ⟨i, reference, fault, hfirst, load_of_reference hparse hfirst⟩
  · obtain ⟨units, libraries, hunits, hlibraries, rfl⟩ := load_eq_ok_iff.1 hp
    refine ⟨rfl, hunits.imp fun s u hu => ?_, hlibraries.imp fun r l hl => ?_⟩
    · obtain ⟨tree, htree, rfl⟩ := parseUnit_eq_ok_iff.1 hu
      exact ⟨rfl, htree⟩
    · exact loadReference_eq_ok_iff.1 hl

/-- The last of three sources is finished first, and both it and the one in the middle fail. -/
theorem load_first_failure_twoBad :
    let sources : List Source := [⟨"a", "decl F()", []⟩, ⟨"b", "!", []⟩, ⟨"c", "?", []⟩]
    let references : List Reference := [⟨"r", .file "r" (.error .notFound)⟩]
    [2, 0, 1].Perm (List.range sources.length) ∧
    ∃ fault, loadFinishing Outline.frontEnd "p" sources references [2, 0, 1] =
      .error (.parse "b" fault) := by
  intro sources references
  have horder : [2, 0, 1].Perm (List.range sources.length) := by decide
  have hbad : ∀ tree, Outline.parse "!" ≠ .ok tree := fun tree h => by cases h
  obtain ⟨-, -, hsource, -⟩ :=
    load_first_failure Outline.frontEnd "p" sources references [2, 0, 1] horder
  obtain ⟨i, source, fault, hfirst, hloaded⟩ := hsource fun h => by
    obtain ⟨tree, htree⟩ := h ⟨"b", "!", []⟩ (by simp [sources])
    exact hbad tree htree
  refine ⟨horder, fault, ?_⟩
  match i, hfirst with
  | 0, hfirst =>
    obtain rfl : ⟨"a", "decl F()", []⟩ = source := by simpa [sources] using hfirst.getElem?_eq
    cases hfirst.fails
  | 1, hfirst =>
    obtain rfl : ⟨"b", "!", []⟩ = source := by simpa [sources] using hfirst.getElem?_eq
    exact hloaded
  | i + 2, hfirst =>
    obtain ⟨tree, htree⟩ := hfirst.before 1 _ (by omega) rfl
    exact absurd htree (hbad tree)

end Project

end Calligraph
