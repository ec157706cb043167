import Mathlib.Data.List.TakeDrop
import Mathlib.Data.List.TakeWhile
import Calligraph.Collect

/-!
# Files with one module

The module of a file is told by the names below the last `src` of its path, as they are shown. Below
one `src`, two paths with different names have the same module only where the layout of modules
allows it (`moduleOf_collisions`): `m.rs` and `m/mod.rs` in one directory, and the files of the
root. But names are not all that there is in a path: a path that goes up again has the names of a
directory that it does not lead to (`moduleOf_wayward`).
-/

namespace Calligraph

open Files (Component components)

/-! ## The parts of a path -/

theorem afterLast?_append {x : String} {after : List String} (before : List String)
    (h : x ∉ after) : afterLast? x (before ++ x :: after) = some after := by
  have hall : ∀ y ∈ after.reverse, decide (y ≠ x) = true := by
    intro y hy
    have hne : y ≠ x := by
      rintro rfl
      exact h (List.mem_reverse.1 hy)
    simpa using hne
  unfold afterLast?
  rw [List.span_eq_takeWhile_dropWhile, List.reverse_append, List.reverse_cons, List.append_assoc,
    List.singleton_append, List.takeWhile_append_of_pos hall, List.dropWhile_append_of_pos hall]
  simp

theorem withoutEnding_append (stem : String) : withoutEnding (stem ++ ".rs") = stem := by
  have hreverse : (stem ++ ".rs").toList.reverse = 's' :: 'r' :: '.' :: stem.toList.reverse := by
    simp
  unfold withoutEnding
  rw [hreverse]
  simp

/-- The file with this stem in this directory below `src` is one of those for the root. -/
def IsRootFile (dirs : List String) (stem : String) : Prop :=
  dirs = [] ∧ stem ∈ ["lib", "main", "mod"]

/-- The file with this stem in this directory below `src` is a module of its own. -/
def IsOwnFile (dirs : List String) (stem : String) : Prop :=
  stem ≠ "mod" ∧ ¬ IsRootFile dirs stem

theorem moduleBelow_mod (dirs : List String) : moduleBelow (dirs ++ ["mod.rs"]) = dirs := by
  have hstem : withoutEnding "mod.rs" = "mod" := withoutEnding_append "mod"
  simp [moduleBelow, hstem]

theorem moduleBelow_root {dirs : List String} {stem : String} (h : IsRootFile dirs stem) :
    moduleBelow (dirs ++ [stem ++ ".rs"]) = [] := by
  obtain ⟨rfl, hstem⟩ := h
  simp only [List.mem_cons, List.not_mem_nil, or_false] at hstem
  have hroot : stem = "mod" ∨ stem = "lib" ∨ stem = "main" := by
    rcases hstem with h | h | h <;> simp [h]
  simp [moduleBelow, withoutEnding_append, hroot]

/-- Any other file is a module of its own in the module of its directory. -/
theorem moduleBelow_own {dirs : List String} {stem : String} (h : IsOwnFile dirs stem) :
    moduleBelow (dirs ++ [stem ++ ".rs"]) = dirs ++ [stem] := by
  unfold moduleBelow
  simp only [List.getLast?_concat, withoutEnding_append, List.dropLast_concat]
  refine if_neg ?_
  rintro (hmod | ⟨hdirs, hstem⟩)
  · exact h.1 hmod
  · exact h.2 ⟨hdirs, by rcases hstem with h | h <;> simp [h]⟩

/-- What a file can be, with its module. -/
theorem moduleBelow_cases (dirs : List String) (stem : String) :
    (stem = "mod" ∧ moduleBelow (dirs ++ [stem ++ ".rs"]) = dirs) ∨
    (IsRootFile dirs stem ∧ moduleBelow (dirs ++ [stem ++ ".rs"]) = []) ∨
    (IsOwnFile dirs stem ∧ moduleBelow (dirs ++ [stem ++ ".rs"]) = dirs ++ [stem]) := by
  by_cases hmod : stem = "mod"
  · subst hmod
    exact .inl ⟨rfl, moduleBelow_mod dirs⟩
  · by_cases hroot : IsRootFile dirs stem
    · exact .inr (.inl ⟨hroot, moduleBelow_root hroot⟩)
    · exact .inr (.inr ⟨⟨hmod, hroot⟩, moduleBelow_own ⟨hmod, hroot⟩⟩)

/-- The files `m.rs` and `m/mod.rs` of a directory, and the files of the root, have one module. -/
def Shares (dirs : List String) (stem : String) (dirs' : List String) (stem' : String) : Prop :=
  (IsOwnFile dirs stem ∧ stem' = "mod" ∧ dirs' = dirs ++ [stem]) ∨
  (IsOwnFile dirs' stem' ∧ stem = "mod" ∧ dirs = dirs' ++ [stem']) ∨
  (IsRootFile dirs stem ∧ IsRootFile dirs' stem')

theorem moduleBelow_eq_iff {dirs dirs' : List String} {stem stem' : String} :
    moduleBelow (dirs ++ [stem ++ ".rs"]) = moduleBelow (dirs' ++ [stem' ++ ".rs"]) ↔
      (dirs = dirs' ∧ stem = stem') ∨ Shares dirs stem dirs' stem' := by
  constructor
  · intro hsame
    rcases moduleBelow_cases dirs stem with ⟨hmod, hm⟩ | ⟨hroot, hm⟩ | ⟨hown, hm⟩ <;>
      rcases moduleBelow_cases dirs' stem' with ⟨hmod', hm'⟩ | ⟨hroot', hm'⟩ | ⟨hown', hm'⟩ <;>
      rw [hm, hm'] at hsame
    · exact .inl ⟨hsame, hmod.trans hmod'.symm⟩
    · exact .inr (.inr (.inr ⟨⟨hsame, by simp [hmod]⟩, hroot'⟩))
    · exact .inr (.inr (.inl ⟨hown', hmod, hsame⟩))
    · exact .inr (.inr (.inr ⟨hroot, hsame.symm, by simp [hmod']⟩))
    · exact .inr (.inr (.inr ⟨hroot, hroot'⟩))
    · simp at hsame
    · exact .inr (.inl ⟨hown, hmod', hsame.symm⟩)
    · simp at hsame
    · obtain ⟨hdirs, hstem⟩ := List.append_inj' hsame rfl
      exact .inl ⟨hdirs, List.singleton_inj.1 hstem⟩
  · rintro (⟨rfl, rfl⟩ | ⟨hown, rfl, rfl⟩ | ⟨hown, rfl, rfl⟩ | ⟨hroot, hroot'⟩)
    · rfl
    · exact (moduleBelow_own hown).trans (moduleBelow_mod _).symm
    · exact (moduleBelow_mod _).trans (moduleBelow_own hown).symm
    · exact (moduleBelow_root hroot).trans (moduleBelow_root hroot').symm

/-! ## Files below `src` -/

/-- By its names, as they are shown, the path is that of the source file `stem.rs` in the directory
`dirs` below a `src`. It is the last `src` of the path, and the file is not below its `bin`. -/
structure InSource (path : Bytes) (dirs : List String) (stem : String) : Prop where
  names_eq : ∃ above, Files.names path = above ++ "src" :: (dirs ++ [stem ++ ".rs"])
  innermost : "src" ∉ dirs ++ [stem ++ ".rs"]
  notBin : (dirs ++ [stem ++ ".rs"]).head? ≠ some "bin"

/-- Below the `src` that `above` leads to, the path goes down by texts. -/
def GoesDownFrom (above : List Component) (path : Bytes) (dirs : List String) (stem : String) :
    Prop :=
  components path = above ++ .name (Bytes.ofText "src") ::
    (dirs ++ [stem ++ ".rs"]).map fun text => .name (Bytes.ofText text)

/-- What stands above the last `src` does not matter. -/
theorem InSource.moduleOf_eq {path : Bytes} {dirs : List String} {stem : String}
    (h : InSource path dirs stem) : moduleOf path = moduleBelow (dirs ++ [stem ++ ".rs"]) := by
  obtain ⟨above, hnames⟩ := h.names_eq
  have hbin := h.notBin
  unfold moduleOf
  rw [hnames, afterLast?_append above h.innermost]
  generalize dirs ++ [stem ++ ".rs"] = below at hbin ⊢
  split
  · next heq => cases heq
  · next heq =>
    cases heq
    exact absurd rfl hbin
  · next heq =>
    cases heq
    exact absurd rfl hbin
  · next heq =>
    cases heq
    rfl

/-- **Modules collide where the layout lets them**, as far as names are shown. Below `src`, two
paths have the same module just if they have the same names there, if one stands for the directory
that is called like the other, or if both are among the files of the root. So the files are the
same, or collide by the layout, if below the same `src` both paths go down by texts. And `m.rs` and
`m/mod.rs` in a directory have the module `m` below that of the directory, whatever stands above
`src`. -/
theorem moduleOf_collisions {p q : Bytes} {dirs dirs' : List String} {stem stem' : String}
    (hp : InSource p dirs stem) (hq : InSource q dirs' stem') :
    (moduleOf p = moduleOf q ↔ (dirs = dirs' ∧ stem = stem') ∨ Shares dirs stem dirs' stem') ∧
    (∀ above, GoesDownFrom above p dirs stem → GoesDownFrom above q dirs' stem' →
      moduleOf p = moduleOf q → components p = components q ∨ Shares dirs stem dirs' stem') ∧
    (stem ≠ "mod" → (dirs = [] → stem ≠ "lib" ∧ stem ≠ "main") →
      dirs' = dirs ++ [stem] → stem' = "mod" →
        moduleOf p = dirs ++ [stem] ∧ moduleOf q = dirs ++ [stem]) := by
  rw [hp.moduleOf_eq, hq.moduleOf_eq, moduleBelow_eq_iff]
  refine ⟨Iff.rfl, fun above hpath hpath' hsame => ?_, fun hmod hroot hdirs hstem => ?_⟩
  · refine hsame.imp_left ?_
    rintro ⟨rfl, rfl⟩
    exact hpath.trans hpath'.symm
  · have hown : IsOwnFile dirs stem := by
      refine ⟨hmod, ?_⟩
      rintro ⟨hnil, hmem⟩
      simp [hmod, hroot hnil] at hmem
    rw [hdirs, hstem]
    exact ⟨moduleBelow_own hown, moduleBelow_mod _⟩

/-- A directory that is called like a file: `a.rs.rs` beside `a.rs/mod.rs`, below the second `src`
of a path. -/
theorem moduleOf_collisions_doubled :
    InSource "/src/b/src/d/a.rs.rs" ["d"] "a.rs" ∧
      InSource "/src/b/src/d/a.rs/mod.rs" ["d", "a.rs"] "mod" ∧
      moduleOf "/src/b/src/d/a.rs.rs" = ["d", "a.rs"] ∧
      moduleOf "/src/b/src/d/a.rs/mod.rs" = ["d", "a.rs"] := by
  have hp : InSource "/src/b/src/d/a.rs.rs" ["d"] "a.rs" :=
    ⟨⟨["src", "b"], by decide +kernel⟩, by decide, by decide⟩
  have hq : InSource "/src/b/src/d/a.rs/mod.rs" ["d", "a.rs"] "mod" :=
    ⟨⟨["src", "b"], by decide +kernel⟩, by decide, by decide⟩
  exact ⟨hp, hq, (moduleOf_collisions hp hq).2.2 (by decide) (by decide) rfl rfl⟩

open Files (Name) in
/-- Two files `b.rs`, one in `src` and one in its directory `a`. -/
def twoLevels : FileSystem :=
  { root := .directory {} [(.ofText "src" rfl, .directory {} [(.ofText "b.rs" rfl, .file {} []),
      (.ofText "a" rfl, .directory {} [(.ofText "b.rs" rfl, .file {} [])])])] }

/-- A path that goes up again leads to another file than the one with its names, and has the module
of that file. Names that are no texts have one module if they are shown alike. -/
theorem moduleOf_wayward :
    InSource "src/a/../b.rs" ["a"] "b" ∧ InSource "src/a/b.rs" ["a"] "b" ∧
      moduleOf "src/a/../b.rs" = ["a", "b"] ∧ moduleOf "src/a/b.rs" = ["a", "b"] ∧
      twoLevels.resolve "src/a/../b.rs" = .ok [.ofText "src" rfl, .ofText "b.rs" rfl] ∧
      twoLevels.resolve "src/a/b.rs" =
        .ok [.ofText "src" rfl, .ofText "a" rfl, .ofText "b.rs" rfl] ∧
    ∃ first second : Bytes, components first ≠ components second ∧
      InSource first [] "�" ∧ InSource second [] "�" ∧
      moduleOf first = ["�"] ∧ moduleOf second = ["�"] := by
  refine ⟨⟨⟨[], by decide +kernel⟩, by decide, by decide⟩,
    ⟨⟨[], by decide +kernel⟩, by decide, by decide⟩, by decide +kernel, by decide +kernel,
    by decide +kernel, by decide +kernel, Bytes.ofText "src/" ++ [0xFE] ++ Bytes.ofText ".rs",
    Bytes.ofText "src/" ++ [0xFF] ++ Bytes.ofText ".rs", by decide +kernel,
    ⟨⟨[], by decide +kernel⟩, by decide, by decide⟩,
    ⟨⟨[], by decide +kernel⟩, by decide, by decide⟩,
    by decide +kernel, by decide +kernel⟩

end Calligraph
