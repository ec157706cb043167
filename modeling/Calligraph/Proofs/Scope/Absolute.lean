import Calligraph.Proofs.Scope.Imports

/-!
# Candidates seen from the crate root

A path is written as a lead, which is made of keywords, with ordinary names behind it. In a scope
that refers to everything from the crate root, the candidates of a path keep no keyword, however far
the lead climbs, with one exception: behind `self`, a `super` is taken for an ordinary name
(`Scope.candidates_absolute_iff`).
-/

namespace Calligraph

/-- No name of the path is a keyword, so that it can be followed from the crate root. -/
def IsAbsolute (path : List String) : Prop :=
  ∀ name ∈ path, name ∉ pathKeywords

instance (path : List String) : Decidable (IsAbsolute path) :=
  inferInstanceAs (Decidable (∀ name ∈ path, name ∉ pathKeywords))

theorem isAbsolute_append {path tail : List String} :
    IsAbsolute (path ++ tail) ↔ IsAbsolute path ∧ IsAbsolute tail :=
  List.forall_mem_append

theorem IsAbsolute.take {path : List String} (h : IsAbsolute path) (n : Nat) :
    IsAbsolute (path.take n) :=
  fun name hname => h name (List.mem_of_mem_take hname)

/-! ## Leads -/

/-- What a path starts with. -/
inductive Lead where
  | root
  | selfType
  /-- The module itself if `here`, or the module `ups` levels above. Names alone have no lead at
  all, which is `home false 0`. -/
  | home (here : Bool) (ups : Nat)
deriving DecidableEq

/-- The keywords of a lead. -/
def Lead.keywords : Lead → List String
  | .root => ["crate"]
  | .selfType => ["Self"]
  | .home here ups => (if here then ["self"] else []) ++ List.replicate ups "super"

/-- The lead climbs from `self`. -/
def Lead.ClimbsFromSelf (lead : Lead) : Prop :=
  ∃ ups, lead = .home true (ups + 1)

/-- All leading `super`s are climbed, and nothing behind them. -/
theorem climbSupers_replicate (home : List String) (ups : Nat) {names : List String}
    (hnames : IsAbsolute names) :
    climbSupers home (List.replicate ups "super" ++ names) = climb home ups names := by
  have hnone : names.takeWhile (· == "super") = [] := by
    cases names with
    | nil => rfl
    | cons first rest =>
      have hfirst : first ∉ pathKeywords := hnames first List.mem_cons_self
      refine List.takeWhile_cons_of_neg fun heq => hfirst ?_
      rw [eq_of_beq heq]
      decide
  have hsupers : (List.replicate ups "super" ++ names).takeWhile (· == "super") =
      List.replicate ups "super" := by
    rw [List.takeWhile_append_of_pos (by simp), hnone, List.append_nil]
  simp [climbSupers, hsupers]

namespace Scope

/-- Everything that the scope refers to is seen from the crate root. -/
structure RefersAbsolutely (s : Scope) : Prop where
  home : IsAbsolute s.home
  selfType : ∀ type ∈ s.selfType, IsAbsolute type
  imports : ∀ label target, s.imports.lookup label = some target → IsAbsolute target
  globs : ∀ glob ∈ s.globs, IsAbsolute glob

variable {s : Scope} {names : List String}

/-! ## Candidates by their lead -/

theorem candidates_supers (s : Scope) (ups : Nat) (hnames : IsAbsolute names) :
    s.candidates (List.replicate (ups + 1) "super" ++ names) = [climb s.home (ups + 1) names] := by
  rw [← climbSupers_replicate s.home (ups + 1) hnames]
  rfl

theorem RefersAbsolutely.climb (hs : s.RefersAbsolutely) (ups : Nat) (hnames : IsAbsolute names) :
    IsAbsolute (Calligraph.climb s.home ups names) :=
  isAbsolute_append.2 ⟨hs.home.take _, hnames⟩

theorem RefersAbsolutely.candidates_selfType (hs : s.RefersAbsolutely) (hnames : IsAbsolute names) :
    ∀ c ∈ s.candidates ("Self" :: names), IsAbsolute c := by
  intro c hc
  obtain ⟨type, htype, rfl⟩ := List.mem_map.1 (show c ∈ s.selfType.toList.map (· ++ names) from hc)
  exact isAbsolute_append.2 ⟨hs.selfType type (Option.mem_toList.1 htype), hnames⟩

theorem RefersAbsolutely.candidates_names (hs : s.RefersAbsolutely) (hnames : IsAbsolute names) :
    ∀ c ∈ s.candidates names, IsAbsolute c := by
  cases names with
  | nil =>
    intro c hc
    cases hc
  | cons first rest =>
    obtain ⟨hfirst, hrest⟩ := List.forall_mem_cons.1 hnames
    intro c hc
    rw [candidates_of_notMem hfirst, List.mem_eraseDups] at hc
    simp only [List.mem_append, List.mem_map, Option.mem_toList, List.mem_singleton] at hc
    rcases hc with ((⟨target, htarget, rfl⟩ | rfl) | ⟨glob, hglob, rfl⟩) | rfl
    · exact isAbsolute_append.2 ⟨hs.imports first target htarget, hrest⟩
    · exact isAbsolute_append.2 ⟨hs.home, hnames⟩
    · exact isAbsolute_append.2 ⟨hs.globs glob hglob, hnames⟩
    · exact hnames

theorem RefersAbsolutely.candidates_lead (hs : s.RefersAbsolutely) (hnames : IsAbsolute names)
    {lead : Lead} (hlead : ¬ lead.ClimbsFromSelf) :
    ∀ c ∈ s.candidates (lead.keywords ++ names), IsAbsolute c := by
  match lead with
  | .root => exact List.forall_mem_singleton.2 hnames
  | .selfType => exact hs.candidates_selfType hnames
  | .home true 0 => exact List.forall_mem_singleton.2 (isAbsolute_append.2 ⟨hs.home, hnames⟩)
  | .home true (ups + 1) => exact absurd ⟨ups, rfl⟩ hlead
  | .home false 0 => exact hs.candidates_names hnames
  | .home false (ups + 1) =>
    show ∀ c ∈ s.candidates (List.replicate (ups + 1) "super" ++ names), _
    rw [s.candidates_supers ups hnames]
    exact List.forall_mem_singleton.2 (hs.climb (ups + 1) hnames)

/-- **Candidates are absolute**, except those of a path that climbs from `self`: its `super`s stand
below the module, where the same path without `self` climbs. -/
theorem candidates_absolute_iff (hs : s.RefersAbsolutely) (lead : Lead)
    (hnames : IsAbsolute names) :
    ((∀ c ∈ s.candidates (lead.keywords ++ names), IsAbsolute c) ↔ ¬ lead.ClimbsFromSelf) ∧
    ∀ ups,
      s.candidates ("self" :: (List.replicate (ups + 1) "super" ++ names)) =
        [s.home ++ (List.replicate (ups + 1) "super" ++ names)] ∧
      s.candidates (List.replicate (ups + 1) "super" ++ names) =
        [s.home.take (s.home.length - (ups + 1)) ++ names] := by
  refine ⟨⟨?_, fun hlead => hs.candidates_lead hnames hlead⟩,
    fun ups => ⟨rfl, s.candidates_supers ups hnames⟩⟩
  rintro habs ⟨ups, rfl⟩
  have hkept : s.home ++ (List.replicate (ups + 1) "super" ++ names) ∈
      s.candidates ((Lead.home true (ups + 1)).keywords ++ names) := List.mem_cons_self
  exact habs _ hkept "super" (by simp) (by decide)

/-- In an impl block of the module `a`, climbing further than the crate root, and climbing from
`self`. -/
theorem candidates_absolute_iff_beyondRoot :
    let s : Scope := ⟨["a"], some ["a", "T"], [("b", ["x", "b"])], [["p"]]⟩
    s.RefersAbsolutely ∧ IsAbsolute ["f"] ∧
      (∀ c ∈ s.candidates ["super", "super", "f"], IsAbsolute c) ∧
      s.candidates ["self", "super", "f"] = [["a", "super", "f"]] ∧
      s.candidates ["super", "f"] = [["f"]] := by
  intro s
  have hs : s.RefersAbsolutely := by
    refine ⟨by decide, by decide, fun label target htarget => ?_, by decide⟩
    by_cases hlabel : label = "b"
    · subst hlabel
      obtain rfl : ["x", "b"] = target := Option.some.inj htarget
      decide
    · simp [s, List.lookup_cons, beq_false_of_ne hlabel] at htarget
  have hnames : IsAbsolute ["f"] := by decide
  obtain ⟨hself, hsuper⟩ := (candidates_absolute_iff hs (.home true 1) hnames).2 0
  refine ⟨hs, hnames, (candidates_absolute_iff hs (.home false 2) hnames).1.2 ?_, hself, hsuper⟩
  rintro ⟨ups, hlead⟩
  cases hlead

/-- In the module `m`, the `super` of `self::super::f` is kept, though nothing in the scope is a
keyword. -/
theorem candidates_self_super :
    let s : Scope := { home := ["m"] }
    s.RefersAbsolutely ∧ IsAbsolute ["f"] ∧
      ¬ (∀ c ∈ s.candidates ["self", "super", "f"], IsAbsolute c) ∧
      s.candidates ["self", "super", "f"] ≠ s.candidates ["super", "f"] := by
  refine ⟨⟨by decide, by decide, fun label target htarget => ?_, by decide⟩, by decide, by decide,
    by decide⟩
  cases htarget

end Scope

end Calligraph
