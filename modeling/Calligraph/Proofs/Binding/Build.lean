import Calligraph.Proofs.Scope.Candidates
import Calligraph.Proofs.Sketch.WellFormed

/-!
# Building bindings

The tables are read while they are filled. All types are there before the first of them is looked
for, and a return type as written depends on the types only (`Bindings.typeOf_eq_of_types`). So what
is added can be listed from the finished bindings (`Bindings.build_eq`), and the tables hold the
first of the listed routines with each path, and each of the listed traits once.
-/

namespace Calligraph

variable {α β γ : Type}

/-- A run whose steps list operations and carry them out carries out one list of operations, if the
operations change nothing that the lists depend on. -/
theorem foldl_eq_foldl_flatMap (op : β → γ → β) (list : β → α → List γ) {step : β → α → β}
    {xs : List α} (hstep : ∀ x ∈ xs, ∀ b, step b x = (list b x).foldl op b)
    (hlist : ∀ x ∈ xs, ∀ b c, list (op b c) x = list b x) (b : β) :
    xs.foldl step b = (xs.flatMap (list b)).foldl op b := by
  induction xs generalizing b with
  | nil => rfl
  | cons x xs ih =>
    obtain ⟨hx, hxs⟩ := List.forall_mem_cons.1 hstep
    obtain ⟨-, hlists⟩ := List.forall_mem_cons.1 hlist
    -- What is listed for the rest is the same before and after the first operations.
    have hsame (y : α) (hy : y ∈ xs) : list ((list b x).foldl op b) y = list b y :=
      List.foldlRecOn (motive := fun c => list c y = list b y) _ op rfl
        fun c hc o _ => (hlists y hy c o).trans hc
    rw [List.foldl_cons, hx, ih hxs hlists, List.flatMap_congr hsame, List.flatMap_cons,
      List.foldl_append]

/-! ## Types -/

/-- The types that a unit declares or has impl blocks for. -/
def Sketch.typeKeys (s : Sketch) : List String :=
  s.types.toList.map pathKey ++ s.impls.toList.map fun d => pathKey d.selfType

/-- The types that the routines of a library belong to. -/
def Library.ownerKeys (l : Library) : List String :=
  ((l.routines.map fun r => r.path.dropLast).filter (! ·.isEmpty)).map pathKey

/-- No return type of a unit depends on a call. -/
def Sketch.ReturnsPlain (s : Sketch) : Prop :=
  ∀ d ∈ s.routines, d.returns.IsPlain

theorem Sketch.returnsPlain_of_mem {units : List (List String × List Item)} {s : Sketch}
    (hs : s ∈ units.map fun u => Sketch.ofItems u.1 u.2) : s.ReturnsPlain := by
  obtain ⟨⟨home, items⟩, _, rfl⟩ := List.mem_map.1 hs
  exact (Sketch.wellFormed_ofItems home items).returns_plain

namespace Bindings

variable {b c : Bindings} {s : Sketch}

/-- The bindings that know the types only. -/
def typed (sketches : List Sketch) (libraries : List Library) : Bindings :=
  libraries.foldl addOwners (sketches.foldl addTypes {})

theorem typed_keeps (sketches : List Sketch) (libraries : List Library) :
    (typed sketches libraries).routines = {} ∧ (typed sketches libraries).traits = {} := by
  have hunits (b : Bindings) : (sketches.foldl addTypes b).routines = b.routines ∧
      (sketches.foldl addTypes b).traits = b.traits := by
    induction sketches generalizing b with
    | nil => exact ⟨rfl, rfl⟩
    | cons s sketches ih => exact ih (b.addTypes s)
  have hlibraries (b : Bindings) : (libraries.foldl addOwners b).routines = b.routines ∧
      (libraries.foldl addOwners b).traits = b.traits := by
    induction libraries generalizing b with
    | nil => exact ⟨rfl, rfl⟩
    | cons l libraries ih => exact ih (b.addOwners l)
  obtain ⟨hroutines, htraits⟩ := hlibraries (sketches.foldl addTypes {})
  exact ⟨hroutines.trans (hunits {}).1, htraits.trans (hunits {}).2⟩

theorem contains_types_typed (sketches : List Sketch) (libraries : List Library) (key : String) :
    (typed sketches libraries).types.contains key ↔
      key ∈ sketches.flatMap Sketch.typeKeys ++ libraries.flatMap Library.ownerKeys := by
  have hunits (b : Bindings) : (sketches.foldl addTypes b).types.contains key ↔
      b.types.contains key ∨ key ∈ sketches.flatMap Sketch.typeKeys := by
    induction sketches generalizing b with
    | nil => simp
    | cons s sketches ih =>
      rw [List.foldl_cons, ih, addTypes]
      simp [Sketch.typeKeys, or_assoc]
  have hlibraries (b : Bindings) : (libraries.foldl addOwners b).types.contains key ↔
      b.types.contains key ∨ key ∈ libraries.flatMap Library.ownerKeys := by
    induction libraries generalizing b with
    | nil => simp
    | cons l libraries ih =>
      rw [List.foldl_cons, ih, addOwners]
      simp [Library.ownerKeys, or_assoc]
  rw [typed, hlibraries, hunits, List.mem_append]
  simp

theorem contains_of_typeAt {path type : List String} {scope : Nat}
    (h : b.typeAt s path scope = some type) : b.types.contains (pathKey type) := by
  obtain ⟨found, _, hfind⟩ := Option.bind_eq_some_iff.1 h
  simpa using List.find?_some hfind

/-! ## What is listed -/

/-- A routine of a unit, with the type that it returns looked for in `b`. -/
def ofDecl (b : Bindings) (s : Sketch) (d : RoutineDecl) : BoundRoutine :=
  ⟨.ofDecl d, b.typeOf s d.returns⟩

/-- A routine of a library, whose return type counts if `b` has it. -/
def ofLibrary (b : Bindings) (r : LibraryRoutine) : BoundRoutine :=
  ⟨⟨r.path, r.params⟩, r.returns.filter fun type => b.types.contains (pathKey type)⟩

/-- The type and the trait of an impl block, if the trait is one that `b` has. -/
def traitOf (b : Bindings) (s : Sketch) (d : ImplDecl) : Option (String × List String) :=
  (d.trait.bind fun path => b.typeAt s path d.scope).map fun trait => (pathKey d.selfType, trait)

/-- The routines of a unit. -/
def declared (b : Bindings) (s : Sketch) : List BoundRoutine :=
  s.routines.toList.map (b.ofDecl s)

/-- The routines of a library. -/
def described (b : Bindings) (l : Library) : List BoundRoutine :=
  l.routines.map b.ofLibrary

/-- The types and the traits of the impl blocks of a unit. -/
def implemented (b : Bindings) (s : Sketch) : List (String × List String) :=
  s.impls.toList.filterMap (b.traitOf s)

/-- All routines, in the order in which they count. -/
def listed (b : Bindings) (sketches : List Sketch) (libraries : List Library) :
    List BoundRoutine :=
  sketches.flatMap b.declared ++ libraries.flatMap b.described

theorem typeAt_eq_of_types (h : b.types.contains = c.types.contains) (s : Sketch)
    (path : List String) (scope : Nat) : b.typeAt s path scope = c.typeAt s path scope := by
  simp only [typeAt, h]

theorem typeOf_eq_of_types (h : b.types.contains = c.types.contains) {hint : TypeHint}
    (hplain : hint.IsPlain) (s : Sketch) : b.typeOf s hint = c.typeOf s hint := by
  cases hint with
  | named path scope => exact typeAt_eq_of_types h s path scope
  | returnOf target => exact hplain.elim
  | unknown => rfl

theorem ofDecl_eq_of_types (h : b.types.contains = c.types.contains) {d : RoutineDecl}
    (hplain : d.returns.IsPlain) (s : Sketch) : b.ofDecl s d = c.ofDecl s d := by
  rw [ofDecl, ofDecl, typeOf_eq_of_types h hplain]

theorem ofLibrary_eq_of_types (h : b.types.contains = c.types.contains) :
    b.ofLibrary = c.ofLibrary := by
  funext r
  rw [ofLibrary, ofLibrary, h]

theorem traitOf_eq_of_types (h : b.types.contains = c.types.contains) (s : Sketch) :
    b.traitOf s = c.traitOf s := by
  funext d
  simp only [traitOf, typeAt_eq_of_types h]

theorem declared_eq_of_types (h : b.types.contains = c.types.contains)
    (hplain : s.ReturnsPlain) : b.declared s = c.declared s :=
  List.map_congr_left fun d hd => ofDecl_eq_of_types h (hplain d (Array.mem_toList_iff.1 hd)) s

theorem described_eq_of_types (h : b.types.contains = c.types.contains) :
    b.described = c.described := by
  funext l
  rw [described, described, ofLibrary_eq_of_types h]

theorem implemented_eq_of_types (h : b.types.contains = c.types.contains) :
    b.implemented = c.implemented := by
  funext s
  rw [implemented, implemented, traitOf_eq_of_types h]

/-! ## What is added -/

/-- Adds a trait of a type, given as a pair. -/
def addPair (b : Bindings) (p : String × List String) : Bindings :=
  b.addTrait p.1 p.2

theorem addPair_keeps (b : Bindings) (p : String × List String) :
    (b.addPair p).types = b.types ∧ (b.addPair p).routines = b.routines := by
  rw [addPair, addTrait]
  split <;> exact ⟨rfl, rfl⟩

theorem addTraits_eq (b : Bindings) (s : Sketch) :
    b.addTraits s = (b.implemented s).foldl addPair b := by
  rw [implemented, List.filterMap_eq_flatMap_toList, addTraits]
  refine foldl_eq_foldl_flatMap addPair (fun b d => (b.traitOf s d).toList)
    (fun d _ b => ?_) (fun d _ b p => ?_) b
  · rw [traitOf]
    cases d.trait.bind fun path => b.typeAt s path d.scope <;> rfl
  · rw [traitOf_eq_of_types (congrArg _ (b.addPair_keeps p).1)]

theorem addDeclared_eq (hplain : s.ReturnsPlain) (b : Bindings) :
    b.addDeclared s = (b.declared s).foldl addRoutine b := by
  rw [declared, List.map_eq_flatMap]
  refine foldl_eq_foldl_flatMap addRoutine (fun b d => [b.ofDecl s d])
    (fun d _ b => rfl) (fun d hd b r => ?_) b
  have htypes : (b.addRoutine r).types.contains = b.types.contains := rfl
  rw [ofDecl_eq_of_types htypes (hplain d (Array.mem_toList_iff.1 hd))]

theorem addLibrary_eq (b : Bindings) (l : Library) :
    b.addLibrary l = (b.described l).foldl addRoutine b := by
  rw [described, List.map_eq_flatMap]
  exact foldl_eq_foldl_flatMap addRoutine (fun b r => [b.ofLibrary r])
    (fun r _ b => rfl) (fun r _ b c => rfl) b

variable {sketches : List Sketch} {libraries : List Library}

theorem foldl_addTraits (b : Bindings) (sketches : List Sketch) :
    sketches.foldl addTraits b = (sketches.flatMap b.implemented).foldl addPair b :=
  foldl_eq_foldl_flatMap addPair implemented (fun s _ b => b.addTraits_eq s)
    (fun _ _ b p => by rw [implemented_eq_of_types (congrArg _ (b.addPair_keeps p).1)]) b

theorem foldl_addDeclared (hplain : ∀ s ∈ sketches, s.ReturnsPlain)
    (b : Bindings) :
    sketches.foldl addDeclared b = (sketches.flatMap b.declared).foldl addRoutine b :=
  foldl_eq_foldl_flatMap addRoutine declared (fun s hs b => addDeclared_eq (hplain s hs) b)
    (fun s hs _ _ => declared_eq_of_types rfl (hplain s hs)) b

theorem foldl_addLibrary (b : Bindings) (libraries : List Library) :
    libraries.foldl addLibrary b = (libraries.flatMap b.described).foldl addRoutine b :=
  foldl_eq_foldl_flatMap addRoutine described (fun l _ b => b.addLibrary_eq l)
    (fun _ _ _ _ => rfl) b

theorem foldl_addPair_keeps (b : Bindings) (ps : List (String × List String)) :
    (ps.foldl addPair b).types = b.types ∧ (ps.foldl addPair b).routines = b.routines := by
  induction ps generalizing b with
  | nil => exact ⟨rfl, rfl⟩
  | cons p ps ih =>
    obtain ⟨htypes, hroutines⟩ := ih (b.addPair p)
    exact ⟨htypes.trans (b.addPair_keeps p).1, hroutines.trans (b.addPair_keeps p).2⟩

theorem foldl_addRoutine_keeps (b : Bindings) (rs : List BoundRoutine) :
    (rs.foldl addRoutine b).types = b.types ∧ (rs.foldl addRoutine b).traits = b.traits := by
  induction rs generalizing b with
  | nil => exact ⟨rfl, rfl⟩
  | cons r rs ih => exact ih (b.addRoutine r)

/-! ## The finished bindings -/

/-- The finished bindings are those that what they list themselves gives. -/
theorem build_eq (hplain : ∀ s ∈ sketches, s.ReturnsPlain)
    (libraries : List Library) :
    (build sketches libraries).types = (typed sketches libraries).types ∧
      build sketches libraries =
        ((build sketches libraries).listed sketches libraries).foldl addRoutine
          ((sketches.flatMap (build sketches libraries).implemented).foldl addPair
            (typed sketches libraries)) := by
  -- The bindings after the types, the traits and the units; all have the same types.
  let b₀ := typed sketches libraries
  let b₁ := (sketches.flatMap b₀.implemented).foldl addPair b₀
  let b₂ := (sketches.flatMap b₁.declared).foldl addRoutine b₁
  have hbuild : build sketches libraries =
      (libraries.flatMap b₂.described).foldl addRoutine b₂ := by
    change libraries.foldl addLibrary (sketches.foldl addDeclared (sketches.foldl addTraits b₀)) = _
    rw [foldl_addTraits, foldl_addDeclared hplain, foldl_addLibrary]
  generalize hb : build sketches libraries = b at *
  have h₁ : b₁.types = b₀.types := (foldl_addPair_keeps ..).1
  have h₂ : b₂.types = b₀.types := (foldl_addRoutine_keeps ..).1.trans h₁
  have htypes : b.types = b₀.types := by rw [hbuild, (foldl_addRoutine_keeps ..).1, h₂]
  refine ⟨htypes, ?_⟩
  have hdeclared : sketches.flatMap b₁.declared = sketches.flatMap b.declared :=
    List.flatMap_congr fun s hs =>
      declared_eq_of_types (congrArg _ (h₁.trans htypes.symm)) (hplain s hs)
  rw [listed, List.foldl_append, ← hdeclared, implemented_eq_of_types (congrArg _ htypes),
    described_eq_of_types (congrArg _ (htypes.trans h₂.symm))]
  exact hbuild

theorem getElem?_addRoutine (b : Bindings) (r : BoundRoutine) (key : String) :
    (b.addRoutine r).routines[key]? =
      b.routines[key]?.or (if pathKey r.name.path = key then some r else none) := by
  rw [addRoutine, Std.TreeMap.getElem?_insertIfNew]
  by_cases hkey : pathKey r.name.path = key
  · subst hkey
    cases h : b.routines[pathKey r.name.path]? <;> simp [h, Std.TreeMap.mem_iff_isSome_getElem?]
  · simp [hkey]

/-- Of the routines with one path, the first counts. -/
theorem getElem?_foldl_addRoutine (b : Bindings) (rs : List BoundRoutine) (key : String) :
    (rs.foldl addRoutine b).routines[key]? =
      b.routines[key]?.or (rs.find? fun r => pathKey r.name.path = key) := by
  induction rs generalizing b with
  | nil => simp
  | cons r rs ih =>
    rw [List.foldl_cons, ih, getElem?_addRoutine, Option.or_assoc, List.find?_cons]
    by_cases hkey : pathKey r.name.path = key <;> simp [hkey]

/-- The traits of the type with this key. -/
def traitsAt (key : String) (ps : List (String × List String)) : List (List String) :=
  (ps.filter fun p => p.1 = key).map Prod.snd

theorem getD_addPair {key : String} {xs : List (List String)}
    (h : b.traits.getD key [] = xs.eraseDups) (p : String × List String) :
    (b.addPair p).traits.getD key [] = (xs ++ traitsAt key [p]).eraseDups := by
  obtain ⟨type, trait⟩ := p
  by_cases hkey : type = key
  · subst hkey
    have hone : traitsAt type [(type, trait)] = [trait] := by simp [traitsAt]
    rw [hone, eraseDups_concat, addPair, addTrait, h]
    by_cases htrait : trait ∈ xs <;> simp [htrait, h]
  · have hnone : traitsAt key [(type, trait)] = [] := by simp [traitsAt, hkey]
    rw [hnone, List.append_nil, addPair, addTrait]
    split
    · exact h
    · rw [Std.TreeMap.getD_insert]
      simpa [hkey] using h

theorem getD_foldl_addPair {key : String} {xs : List (List String)}
    (h : b.traits.getD key [] = xs.eraseDups) (ps : List (String × List String)) :
    (ps.foldl addPair b).traits.getD key [] = (xs ++ traitsAt key ps).eraseDups := by
  induction ps generalizing b xs with
  | nil => simpa [traitsAt] using h
  | cons p ps ih =>
    have hcons : traitsAt key (p :: ps) = traitsAt key [p] ++ traitsAt key ps := by
      rw [traitsAt, traitsAt, traitsAt, ← List.map_append, ← List.filter_append,
        List.singleton_append]
    rw [List.foldl_cons, ih (getD_addPair h p), hcons, List.append_assoc]

theorem contains_of_mem_declared (hplain : s.ReturnsPlain) {r : BoundRoutine}
    (hr : r ∈ b.declared s) {type : List String} (htype : r.returns = some type) :
    b.types.contains (pathKey type) := by
  obtain ⟨d, hd, rfl⟩ := List.mem_map.1 hr
  have hhint := hplain d (Array.mem_toList_iff.1 hd)
  have hof : b.typeOf s d.returns = some type := htype
  cases hreturns : d.returns with
  | named path scope =>
    rw [hreturns] at hof
    exact contains_of_typeAt hof
  | returnOf target =>
    rw [hreturns] at hhint
    exact hhint.elim
  | unknown => simp [hreturns, typeOf] at hof

theorem contains_of_mem_described {l : Library} {r : BoundRoutine} (hr : r ∈ b.described l)
    {type : List String} (htype : r.returns = some type) : b.types.contains (pathKey type) := by
  obtain ⟨d, _, rfl⟩ := List.mem_map.1 hr
  exact (Option.filter_eq_some_iff.1 htype).2

theorem getElem?_routines_build (hplain : ∀ s ∈ sketches, s.ReturnsPlain)
    (key : String) :
    (build sketches libraries).routines[key]? =
      ((build sketches libraries).listed sketches libraries).find? fun r =>
        pathKey r.name.path = key := by
  obtain ⟨-, hbuild⟩ := build_eq hplain libraries
  generalize build sketches libraries = b at *
  have hstart : ((sketches.flatMap b.implemented).foldl addPair
      (typed sketches libraries)).routines = {} :=
    (foldl_addPair_keeps ..).2.trans (typed_keeps sketches libraries).1
  calc b.routines[key]?
    _ = ((b.listed sketches libraries).foldl addRoutine ((sketches.flatMap b.implemented).foldl
          addPair (typed sketches libraries))).routines[key]? := by rw [← hbuild]
    _ = _ := by
      rw [getElem?_foldl_addRoutine, hstart]
      simp

theorem getD_traits_build (hplain : ∀ s ∈ sketches, s.ReturnsPlain)
    (key : String) :
    (build sketches libraries).traits.getD key [] =
      (traitsAt key (sketches.flatMap (build sketches libraries).implemented)).eraseDups := by
  obtain ⟨-, hbuild⟩ := build_eq hplain libraries
  generalize build sketches libraries = b at *
  have hstart : (typed sketches libraries).traits.getD key [] = [].eraseDups := by
    simp [(typed_keeps sketches libraries).2]
  have htraits : b.traits = ((sketches.flatMap b.implemented).foldl addPair
      (typed sketches libraries)).traits :=
    (congrArg Bindings.traits hbuild).trans (foldl_addRoutine_keeps ..).2
  rw [htraits, getD_foldl_addPair hstart, List.nil_append]

/-- The return type of a routine that is listed is there. -/
theorem contains_of_mem_listed (hplain : ∀ s ∈ sketches, s.ReturnsPlain)
    {r : BoundRoutine} (hr : r ∈ b.listed sketches libraries) {type : List String}
    (htype : r.returns = some type) : b.types.contains (pathKey type) := by
  rcases List.mem_append.1 hr with hr | hr
  · obtain ⟨s, hs, hr⟩ := List.mem_flatMap.1 hr
    exact contains_of_mem_declared (hplain s hs) hr htype
  · obtain ⟨l, _, hr⟩ := List.mem_flatMap.1 hr
    exact contains_of_mem_described hr htype

/-- **The order in which the tables are filled does not show.** The tables are what the finished
bindings list: the first routine with each path, with the type that it returns, and the traits of
each type. -/
theorem build_settled (units : List (List String × List Item)) (libraries : List Library) :
    let sketches := units.map fun u => Sketch.ofItems u.1 u.2
    let b := build sketches libraries
    (∀ key, b.routines[key]? =
      (b.listed sketches libraries).find? fun r => pathKey r.name.path = key) ∧
    (∀ (key : String) (r : BoundRoutine) (type : List String), b.routines[key]? = some r →
      r.returns = some type → b.types.contains (pathKey type)) ∧
    (∀ key, (b.traits.getD key []).Nodup ∧
      b.traits.getD key [] = (traitsAt key (sketches.flatMap b.implemented)).eraseDups) ∧
    ∀ key, b.types.contains key ↔
      key ∈ sketches.flatMap Sketch.typeKeys ++ libraries.flatMap Library.ownerKeys := by
  intro sketches b
  have hplain (s : Sketch) (hs : s ∈ sketches) : s.ReturnsPlain := Sketch.returnsPlain_of_mem hs
  have hroutines (key : String) : b.routines[key]? =
      (b.listed sketches libraries).find? fun r => pathKey r.name.path = key :=
    getElem?_routines_build hplain key
  refine ⟨hroutines, fun key r type hr htype => ?_, fun key => ?_, fun key => ?_⟩
  · rw [hroutines] at hr
    exact contains_of_mem_listed hplain (List.mem_of_find?_eq_some hr) htype
  · have htraits : b.traits.getD key [] = _ := getD_traits_build hplain key
    exact ⟨htraits ▸ nodup_eraseDups _, htraits⟩
  · have htypes : b.types = (typed sketches libraries).types := (build_eq hplain libraries).1
    rw [htypes, contains_types_typed]

/-- The type that a routine returns is declared in a later unit. -/
theorem build_settled_laterType :
    let type : Ty := .path (.plain false [.plain "crate", .plain "m", .plain "T"])
    let units : List (List String × List Item) :=
      [([], [.function ⟨"f", ⟨1, 3⟩, {}, [], some type⟩ []]), (["m"], [.record "T"])]
    let b := build (units.map fun u => Sketch.ofItems u.1 u.2) []
    b.routines["f"]? = some ⟨⟨["f"], []⟩, some ["m", "T"]⟩ ∧ b.types.contains "m::T" := by
  intro type units b
  have hroutine : b.routines["f"]? = some ⟨⟨["f"], []⟩, some ["m", "T"]⟩ := by decide
  exact ⟨hroutine, (build_settled units []).2.1 "f" _ _ hroutine rfl⟩

end Bindings

end Calligraph
