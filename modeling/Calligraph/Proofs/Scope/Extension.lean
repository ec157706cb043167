import Calligraph.Proofs.Binding.Member

/-!
# Extended paths

A path may be looked up as a whole, or its owner first and the rest behind all that the owner may
mean. Both give the same candidates in the same order, even where an import, the module, a glob and
the crate root lead to one candidate, which is kept once. The one exception is an owner of `super`s
alone with a `super` behind it, where the whole path climbs on (`Scope.candidates_extension`).
-/

namespace Calligraph

variable {path tail : List String}

/-! ## Climbing on -/

theorem length_climbSupers (home path : List String) :
    (climbSupers home path).length =
      (home.length - (path.takeWhile (· == "super")).length) +
        (path.length - (path.takeWhile (· == "super")).length) := by
  simp [climbSupers, climb]

/-- Each `super` behind the first ones is gone and takes a name of the module along, as far as there
are any. Behind the path that is climbed already, it would stand as a name. -/
theorem length_climbSupers_lt (home : List String) (hpath : OnlySupers path)
    (htail : tail.head? = some "super") :
    (climbSupers home (path ++ tail)).length < (climbSupers home path ++ tail).length := by
  obtain ⟨rest, rfl⟩ := List.head?_eq_some_iff.1 htail
  have hself : path.takeWhile (· == "super") = path := by
    simpa using hpath.takeWhile_append []
  have hmore : (path ++ "super" :: rest).takeWhile (· == "super") =
      path ++ "super" :: rest.takeWhile (· == "super") := by
    rw [hpath.takeWhile_append]
    rfl
  rw [List.length_append, length_climbSupers, length_climbSupers, hself, hmore]
  simp only [List.length_append, List.length_cons]
  omega

namespace Scope

variable (s : Scope)

/-! ## Candidates once each -/

theorem nodup_candidates (path : List String) : (s.candidates path).Nodup := by
  cases path with
  | nil => exact List.nodup_nil
  | cons first rest =>
    unfold candidates
    dsimp only
    split
    · exact List.nodup_singleton _
    · exact List.nodup_singleton _
    · exact List.nodup_singleton _
    · cases s.selfType with
      | none => exact List.nodup_nil
      | some type => exact List.nodup_singleton _
    · exact nodup_eraseDups _

/-! ## Candidates of extended paths -/

theorem candidates_of_onlySupers (hpath : path ≠ []) (h : OnlySupers path) (tail : List String) :
    s.candidates (path ++ tail) = [climbSupers s.home (path ++ tail)] := by
  cases path with
  | nil => exact absurd rfl hpath
  | cons first rest =>
    obtain rfl : first = "super" := h first List.mem_cons_self
    rfl

theorem qualify_of_onlySupers (hpath : path ≠ []) (h : OnlySupers path) (tail : List String) :
    s.qualify (path ++ tail) = climbSupers s.home (path ++ tail) := by
  rw [qualify, s.candidates_of_onlySupers hpath h]
  rfl

/-- The first of the extended candidates is the first one extended, and a path without candidates
stands for itself with anything behind it as well. -/
theorem qualify_of_candidates
    (h : s.candidates (path ++ tail) = (s.candidates path).map (· ++ tail)) :
    s.qualify (path ++ tail) = s.qualify path ++ tail := by
  rw [qualify, qualify, h]
  cases s.candidates path with
  | nil => rfl
  | cons c others => rfl

theorem stopsClimbing_of_qualify (hpath : path ≠ [])
    (h : s.qualify (path ++ tail) = s.qualify path ++ tail) : StopsClimbing path tail := by
  by_contra hclimbs
  obtain ⟨honly, htail⟩ := not_stopsClimbing_iff.1 hclimbs
  have howner : s.qualify path = climbSupers s.home path := by
    simpa using s.qualify_of_onlySupers hpath honly []
  have hlt := length_climbSupers_lt s.home honly htail
  rw [← s.qualify_of_onlySupers hpath honly, h, howner] at hlt
  exact lt_irrefl _ hlt

theorem candidates_append_iff (hpath : path ≠ []) :
    s.candidates (path ++ tail) = (s.candidates path).map (· ++ tail) ↔ StopsClimbing path tail :=
  ⟨fun h => s.stopsClimbing_of_qualify hpath (s.qualify_of_candidates h),
    s.candidates_append hpath⟩

theorem qualify_append_iff (hpath : path ≠ []) :
    s.qualify (path ++ tail) = s.qualify path ++ tail ↔ StopsClimbing path tail :=
  ⟨s.stopsClimbing_of_qualify hpath, fun h =>
    s.qualify_of_candidates (s.candidates_append hpath h)⟩

/-- **Extending a path commutes with looking it up.** No path is a candidate twice. The candidates
of an extended path are those of the path, each extended and in the same order, and the likeliest
meaning is extended with them; both just if the extension does not go on with a climb. So a call of
a member by its path asks what its owner may mean, one after the other, for the member, and then the
type that the owner means. -/
theorem candidates_extension (path : List String) (hpath : path ≠ []) :
    (s.candidates path).Nodup ∧
    (∀ tail,
      (s.candidates (path ++ tail) = (s.candidates path).map (· ++ tail) ↔
        StopsClimbing path tail) ∧
      (s.qualify (path ++ tail) = s.qualify path ++ tail ↔ StopsClimbing path tail)) ∧
    ∀ (b : Bindings) (u : Sketch) (scope : Nat) (name : String),
      u.scopes[scope]? = some s → StopsClimbing path [name] →
      b.resolve u (.path (path ++ [name]) scope) =
        (b.ownIn (s.candidates path) name).or
          (b.resolve u (.method (.named path scope) name)) := by
  refine ⟨s.nodup_candidates path, fun tail => ?_, fun b u scope name hscope hstops => ?_⟩
  · exact ⟨s.candidates_append_iff hpath, s.qualify_append_iff hpath⟩
  · exact Bindings.routineAt_concat hscope hpath hstops

/-- A type that the root module has by an import and by a glob, and a call of its member. -/
def overlapping : List Item :=
  let type : Ty := .path (.plain false [.plain "T"])
  let callee : Expr := .path (.plain false [.plain "T", .plain "new"]) []
  [.module "p" ⟨1, 4⟩ [
      .record "T",
      .implBlock {} none type [.function ⟨"new", ⟨3, 20⟩, {}, [], none⟩ (some [])]],
    .uses (.under "p" (.leaf "T")) [],
    .uses (.under "p" .all) [],
    .function ⟨"f", ⟨7, 3⟩, {}, [], none⟩ [.expr (.call ⟨7, 9⟩ [] callee [])]]

/-- The import and the glob give one candidate, so do the module and the crate root, for the type
and for its member. With another `super`, the candidate of `super` is not extended. -/
theorem candidates_extension_overlapping :
    let s := Scope.ofModule [] overlapping
    let u := Sketch.ofItems [] overlapping
    let b := Bindings.build [u] []
    ["T"] ≠ [] ∧ StopsClimbing ["T"] ["new"] ∧ u.scopes[0]? = some s ∧
      s.candidates ["T"] = [["p", "T"], ["T"]] ∧
      s.candidates ["T", "new"] = [["p", "T", "new"], ["T", "new"]] ∧
      s.qualify ["T", "new"] = ["p", "T", "new"] ∧
      (b.resolve u (.path ["T", "new"] 0)).map BoundRoutine.name =
        some ⟨["p", "T", "new"], []⟩ ∧
      s.candidates ["super", "super"] ≠ (s.candidates ["super"]).map (· ++ ["super"]) := by
  intro s u b
  have hstops : StopsClimbing ["T"] ["new"] := by decide
  have hscope : u.scopes[0]? = some s := by decide +kernel
  have howner : s.candidates ["T"] = [["p", "T"], ["T"]] := by decide +kernel
  obtain ⟨-, hextended, hresolve⟩ := s.candidates_extension ["T"] (by decide)
  obtain ⟨hcandidates, hqualify⟩ := hextended ["new"]
  obtain ⟨-, hsupers, -⟩ := s.candidates_extension ["super"] (by decide)
  refine ⟨by decide, hstops, hscope, howner, ?_, ?_, ?_, mt (hsupers ["super"]).1.1 (by decide)⟩
  · exact (hcandidates.2 hstops).trans (by rw [howner]; rfl)
  · exact (hqualify.2 hstops).trans (by rw [qualify, howner]; rfl)
  · rw [show b.resolve u (.path ["T", "new"] 0) = _ from hresolve b u 0 "new" hscope hstops, howner]
    decide +kernel

end Scope

end Calligraph
