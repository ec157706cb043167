import Calligraph.Proofs.Sketch.Recorded

/-!
# The types of impl blocks

A file is sketched before anything is known of other files, so the type of an impl block is taken
for the first path that it may mean, whether a type is declared there or not. The methods of the
block belong to that path (`Sketch.implBlock_first_candidate`). For a type that a module has by a
glob only, this is not the type that the block is written for, as in `Item.globbed`.
-/

namespace Calligraph

/-- The types that the items of some files declare. -/
def Item.declaredTypes (units : List (List String × List Item)) : List (List String) :=
  units.flatMap fun u => (Item.inFile u.1 u.2).filterMap fun x => x.2.type? x.1

namespace Scope

variable {here : Scope} {path : List String} {declared : List (List String)}

theorem head?_candidates (h : here.candidates path ≠ []) :
    (here.candidates path).head? = some (here.qualify path) := by
  unfold qualify
  cases hc : here.candidates path with
  | nil => exact absurd hc h
  | cons c rest => rfl

/-- The likeliest meaning is the first that is declared if it is declared at all. -/
theorem find?_candidates_iff (h : here.candidates path ≠ []) :
    (here.candidates path).find? (· ∈ declared) = some (here.qualify path) ↔
      here.qualify path ∈ declared := by
  constructor
  · intro hfind
    simpa using List.find?_some hfind
  · intro hmem
    have hhead := head?_candidates h
    cases hc : here.candidates path with
    | nil => exact absurd hc h
    | cons c rest =>
      rw [hc] at hhead
      obtain rfl : c = here.qualify path := Option.some.inj hhead
      exact List.find?_cons_of_pos (by simpa using hmem)

end Scope

namespace Sketch

variable {home : List String} {items : List Item} {here : Scope} {item : Item}

theorem exists_impl_of_mem_inFile {head : List String × Option (List String)}
    (hmem : (here, item) ∈ Item.inFile home items) (hhead : item.impl? here = some head) :
    ∃ d ∈ (ofItems home items).impls, d.head = head := by
  have hin : head ∈ (ofItems home items).found.impls := by
    rw [(found_ofItems home items).impls]
    exact List.mem_filterMap.2 ⟨(here, item), hmem, hhead⟩
  obtain ⟨d, hd, hhead⟩ := List.mem_map.1 hin
  exact ⟨d, Array.mem_toList_iff.1 hd, hhead⟩

theorem exists_routine_of_mem_inFile {sig : Signature}
    (hmem : (here, item) ∈ Item.inFile home items) (hsig : sig ∈ item.signatures) :
    ∃ d ∈ (ofItems home items).routines, RoutineName.ofDecl d = .under (item.owner here) sig := by
  have hnames := (found_ofItems home items).names (.under (item.owner here) sig)
  have hin : .under (item.owner here) sig ∈ (ofItems home items).found.names :=
    hnames.2 (.inr ⟨(here, item), hmem, List.mem_map_of_mem hsig⟩)
  obtain ⟨d, hd, hname⟩ := List.mem_map.1 hin
  exact ⟨d, Array.mem_toList_iff.1 hd, hname⟩

/-- **An impl block belongs to the first path that its type may mean.** The impl blocks of a file
are recorded in order. One for a path is recorded with the first candidate of the path in its scope,
and its methods are declared under that. If a candidate is the path of a type in the project, this
is the first such candidate just if it is the path of a type itself. -/
theorem implBlock_first_candidate (units : List (List String × List Item)) :
    ∀ u ∈ units,
      let s := ofItems u.1 u.2
      (s.impls.toList.map ImplDecl.head =
        (Item.inFile u.1 u.2).filterMap fun x => x.2.impl? x.1) ∧
      ∀ (here : Scope) (generics : Generics) (trait : Option Path) (rooted : Bool)
        (segments : List Segment) (members : List Member),
        (here, .implBlock generics trait (.path (.plain rooted segments)) members) ∈
          Item.inFile u.1 u.2 →
        let path := segments.map Segment.name
        let owner := here.qualify path
        (∃ d ∈ s.impls, d.selfType = owner ∧ d.trait = trait.map Path.names) ∧
        (∀ sig ∈ Member.signatures members, ∃ d ∈ s.routines,
          d.path = owner ++ [sig.name] ∧ d.params = sig.renderParams) ∧
        ((∃ c ∈ here.candidates path, c ∈ Item.declaredTypes units) →
          (here.candidates path).head? = some owner ∧
            ((here.candidates path).find? (· ∈ Item.declaredTypes units) = some owner ↔
              owner ∈ Item.declaredTypes units)) := by
  intro u _ s
  refine ⟨(found_ofItems u.1 u.2).impls, ?_⟩
  intro here generics trait rooted segments members hmem path owner
  refine ⟨?_, fun sig hsig => ?_, fun ⟨c, hc, _⟩ => ?_⟩
  · obtain ⟨d, hd, hhead⟩ := exists_impl_of_mem_inFile hmem rfl
    exact ⟨d, hd, congrArg Prod.fst hhead, congrArg Prod.snd hhead⟩
  · obtain ⟨d, hd, hname⟩ := exists_routine_of_mem_inFile hmem hsig
    exact ⟨d, hd, congrArg RoutineName.path hname, congrArg RoutineName.params hname⟩
  · have hne : here.candidates path ≠ [] := List.ne_nil_of_mem hc
    exact ⟨Scope.head?_candidates hne, Scope.find?_candidates_iff hne⟩

end Sketch

/-- A type, a module that takes over everything from above and has an impl block for the type, and
a call of the method outside of the module. -/
def Item.globbed : List Item :=
  let type : Ty := .path (.plain false [.plain "T"])
  let value : Expr := .path (.plain false [.plain "t"]) []
  [.record "T",
    .module "m" ⟨2, 4⟩ [
      .uses (.under "super" .all) [],
      .implBlock {} none type [.function ⟨"f", ⟨4, 20⟩, {}, [.receiver], none⟩ (some [])]],
    .function ⟨"g", ⟨6, 3⟩, {}, [.typed (.name "t" none) (.reference none false type)], none⟩
      [.expr (.method ⟨6, 16⟩ [] value "f" [])]]

/-- The scope of the module in `Item.globbed`. -/
def Scope.globbed : Scope :=
  { home := ["m"], globs := [[]] }

/-- The impl block in `Item.globbed`. -/
theorem Item.mem_inFile_globbed :
    (Scope.globbed, .implBlock {} none (.path (.plain false [.plain "T"]))
      [.function ⟨"f", ⟨4, 20⟩, {}, [.receiver], none⟩ (some [])]) ∈
      Item.inFile [] Item.globbed :=
  List.mem_of_getElem? (i := 3) rfl

/-- The type that the block is written for is declared, but its method is declared elsewhere, and
the call of it is not resolved. -/
theorem Sketch.implBlock_globbed :
    let s := Sketch.ofItems [] Item.globbed
    (∃ members, (Scope.globbed, .implBlock {} none (.path (.plain false [.plain "T"])) members) ∈
      Item.inFile [] Item.globbed) ∧
    (Scope.globbed.candidates ["T"]).find? (· ∈ Item.declaredTypes [([], Item.globbed)]) =
      some ["T"] ∧
    s.impls.toList.map ImplDecl.selfType = [["m", "T"]] ∧
    s.routines.toList.map RoutineDecl.path = [["m", "T", "f"], ["g"]] ∧
    s.callAt 4 = some (.method (.named ["T"] 0) "f") ∧
    (Bindings.build [s] []).resolve s (.method (.named ["T"] 0) "f") = none := by
  intro s
  refine ⟨⟨_, Item.mem_inFile_globbed⟩, ?_, ?_, ?_, ?_, ?_⟩ <;> decide +kernel

theorem Sketch.implBlock_first_candidate_globbed :
    let s := Sketch.ofItems [] Item.globbed
    let declared := Item.declaredTypes [([], Item.globbed)]
    (∃ c ∈ Scope.globbed.candidates ["T"], c ∈ declared) ∧
    (∃ d ∈ s.impls, d.selfType = ["m", "T"]) ∧ (∃ d ∈ s.routines, d.path = ["m", "T", "f"]) ∧
    (Scope.globbed.candidates ["T"]).find? (· ∈ declared) ≠ some ["m", "T"] := by
  intro s declared
  have hmember : ∃ c ∈ Scope.globbed.candidates ["T"], c ∈ declared :=
    ⟨["T"], by decide +kernel, by decide +kernel⟩
  obtain ⟨-, hblock⟩ :=
    Sketch.implBlock_first_candidate [([], Item.globbed)] _ (List.mem_singleton_self _)
  obtain ⟨⟨d, hd, hself, -⟩, hmethods, hfirst⟩ := hblock _ _ _ _ _ _ Item.mem_inFile_globbed
  obtain ⟨r, hr, hpath, -⟩ := hmethods _ (List.mem_singleton_self _)
  have howner : Scope.globbed.qualify ["T"] = ["m", "T"] := by decide +kernel
  have hundeclared : ["m", "T"] ∉ declared := by decide +kernel
  refine ⟨hmember, ⟨d, hd, hself.trans howner⟩, ⟨r, hr, ?_⟩, fun hfind => ?_⟩
  · exact hpath.trans (congrArg (· ++ ["f"]) howner)
  · exact hundeclared (howner ▸ (hfirst hmember).2.1 (hfind.trans (congrArg some howner.symm)))

end Calligraph
