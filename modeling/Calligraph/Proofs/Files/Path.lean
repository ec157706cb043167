import Mathlib.Data.List.Induction
import Mathlib.Data.List.Nodup
import Calligraph.Files.Path

/-!
# Paths below a directory

A name put behind a path is one more component at its end, whether the path ends with a slash or not
(`Files.components_join`). The order of paths is that of their components, and paths with the same
components are ranked alike (`Files.comparePaths_eq_iff`).
-/

namespace Calligraph.Files

open Bytes (slash)

variable {dir name path : Bytes}

/-! ## Pieces -/

theorem pieces_append_slash (front back : Bytes) :
    pieces (front ++ slash :: back) = pieces front ++ pieces back := by
  unfold pieces
  rw [List.splitOn, List.splitOnP_append_cons _ _ (by simp)]
  rfl

theorem pieces_of_notMem (h : slash ∉ name) : pieces name = [name] := by
  unfold pieces
  rw [List.splitOn, List.splitOnP_eq_singleton]
  intro c hc
  have hne : c ≠ slash := by
    rintro rfl
    exact h hc
  simpa using hne

theorem IsName.pieces_eq (h : IsName name) : pieces name = [name] :=
  pieces_of_notMem h.2.2.2

theorem pieces_ne_nil (path : Bytes) : pieces path ≠ [] := by
  simp [pieces, List.splitOn_ne_nil]

/-- The pieces determine the path. -/
theorem pieces_injective : Function.Injective pieces := by
  intro p q h
  have hp : [slash].intercalate (p.splitOn slash) = p := List.intercalate_splitOn slash
  have hq : [slash].intercalate (q.splitOn slash) = q := List.intercalate_splitOn slash
  unfold pieces at h
  rw [← hp, h, hq]

/-- A path that ends with a slash has an empty piece at its end, in the place of which a name
comes. -/
theorem pieces_join_cases (hdir : dir ≠ []) (hname : IsName name) :
    (∃ front, front ≠ [] ∧ pieces dir = front ++ [[]] ∧ pieces (join dir name) = front ++ [name]) ∨
      pieces (join dir name) = pieces dir ++ [name] := by
  unfold join
  rw [hname.isRooted_eq, if_neg Bool.false_ne_true]
  split
  · next hslash =>
    left
    obtain ⟨front, rfl⟩ := List.getLast?_eq_some_iff.1 (hslash.resolve_left hdir)
    refine ⟨pieces front, pieces_ne_nil _, pieces_append_slash front [], ?_⟩
    rw [List.append_assoc, List.singleton_append, pieces_append_slash, hname.pieces_eq]
  · right
    rw [pieces_append_slash, hname.pieces_eq]

theorem isRooted_join (hdir : dir ≠ []) (hname : IsName name) :
    isRooted (join dir name) = isRooted dir := by
  obtain ⟨c, rest, rfl⟩ := List.exists_cons_of_ne_nil hdir
  unfold join
  rw [hname.isRooted_eq, if_neg Bool.false_ne_true]
  unfold isRooted
  split <;> simp

/-! ## Components -/

theorem IsName.component?_eq (h : IsName name) : component? name = some (.name name) := by
  obtain ⟨hempty, hhere, hup, -⟩ := h
  simp [component?, hempty, hhere, hup]

/-- **A name behind a path** is one more component. -/
theorem components_join (hdir : dir ≠ []) (hname : IsName name) :
    components (join dir name) = components dir ++ [.name name] := by
  have hone : [name].filterMap component? = [.name name] := by
    simp [hname.component?_eq]
  unfold components
  rw [isRooted_join hdir hname, List.append_assoc]
  rcases pieces_join_cases hdir hname with ⟨front, hfront, hpieces, hjoined⟩ | hjoined
  · obtain ⟨first, rest, rfl⟩ := List.exists_cons_of_ne_nil hfront
    have hnone : [([] : Bytes)].filterMap component? = [] := rfl
    rw [hpieces, hjoined, List.filterMap_append, List.filterMap_append, hone, hnone,
      List.append_nil]
    rfl
  · obtain ⟨first, rest, hpieces⟩ := List.exists_cons_of_ne_nil (pieces_ne_nil dir)
    rw [hjoined, List.filterMap_append, hone, hpieces]
    rfl

theorem fileName?_join (hdir : dir ≠ []) (hname : IsName name) :
    fileName? (join dir name) = some name := by
  unfold fileName?
  rw [components_join hdir hname, List.getLast?_concat]
  rfl

theorem join_ne_nil (hdir : dir ≠ []) (hname : IsName name) : join dir name ≠ [] := by
  unfold join
  rw [hname.isRooted_eq, if_neg Bool.false_ne_true]
  split <;> simp [hdir]

/-! ## Paths below -/

/-- The path that leads on from `root` by some names. -/
def below (root : Bytes) (names : List Name) : Bytes :=
  names.foldl (fun dir name => join dir name.bytes) root

theorem below_concat (root : Bytes) (names : List Name) (name : Name) :
    below root (names ++ [name]) = join (below root names) name.bytes := by
  simp [below]

theorem below_ne_nil {root : Bytes} (hroot : root ≠ []) (names : List Name) :
    below root names ≠ [] := by
  induction names using List.reverseRecOn with
  | nil => exact hroot
  | append_singleton names name ih =>
    rw [below_concat]
    exact join_ne_nil ih name.isName

theorem components_below {root : Bytes} (hroot : root ≠ []) (names : List Name) :
    components (below root names) = components root ++ names.map (.name ·.bytes) := by
  induction names using List.reverseRecOn with
  | nil => exact (List.append_nil _).symm
  | append_singleton names name ih =>
    rw [below_concat, components_join (below_ne_nil hroot names) name.isName, ih, List.map_append,
      List.append_assoc]
    rfl

/-- Names in different order or number lead to different paths. -/
theorem below_injective {root : Bytes} (hroot : root ≠ []) {names other : List Name}
    (h : components (below root names) = components (below root other)) : names = other := by
  rw [components_below hroot, components_below hroot] at h
  exact (List.map_inj_right fun _ _ heq => Name.ext (Component.name.inj heq)).1
    (List.append_cancel_left h)

/-! ## The order of paths -/

namespace Component

theorem eq_of_rank_eq {a b : Component} (hrank : a.rank = b.rank) (hbytes : a.bytes = b.bytes) :
    a = b := by
  cases a <;> cases b <;> simp_all [rank, bytes]

instance : Std.TransCmp Component.compare :=
  inferInstanceAs (Std.TransCmp
    (compareLex (compareOn Component.rank) (compareOn Component.bytes)))

instance : Std.LawfulEqCmp Component.compare where
  eq_of_compare {a b} h := by
    obtain ⟨hrank, hbytes⟩ := Ordering.then_eq_eq.1 h
    exact eq_of_rank_eq (Std.LawfulEqOrd.eq_of_compare hrank)
      (Std.LawfulEqOrd.eq_of_compare hbytes)

end Component

theorem comparePaths_eq_iff {a b : Bytes} :
    comparePaths a b = .eq ↔ components a = components b := by
  unfold comparePaths
  exact Std.LawfulEqCmp.compare_eq_iff_eq

theorem comparePaths_le_trans (a b c : Bytes) (hab : (comparePaths a b).isLE)
    (hbc : (comparePaths b c).isLE) : (comparePaths a c).isLE := by
  unfold comparePaths at hab hbc ⊢
  exact Std.TransCmp.isLE_trans hab hbc

theorem comparePaths_swap (a b : Bytes) : comparePaths a b = (comparePaths b a).swap := by
  unfold comparePaths
  exact Std.OrientedCmp.eq_swap

theorem comparePaths_le_total (a b : Bytes) :
    ((comparePaths a b).isLE || (comparePaths b a).isLE) = true := by
  rw [comparePaths_swap a b]
  cases comparePaths b a <;> rfl

/-- The paths rise from each to the next. -/
def Rising (paths : List Bytes) : Prop :=
  paths.Pairwise fun a b => comparePaths a b = .lt

theorem Rising.nodup {paths : List Bytes} (h : Rising paths) : paths.Nodup := by
  refine List.Pairwise.imp (fun {a b} hlt => ?_) h
  rintro rfl
  rw [comparePaths_eq_iff.2 rfl] at hlt
  cases hlt

/-- Rising paths are told by what is among them. -/
theorem Rising.eq_of_mem_iff {paths other : List Bytes} (h : Rising paths) (h' : Rising other)
    (hmem : ∀ p, p ∈ paths ↔ p ∈ other) : paths = other := by
  have hperm : paths.Perm other := (List.perm_ext_iff_of_nodup h.nodup h'.nodup).2 hmem
  refine hperm.eq_of_pairwise (fun a b _ _ hab hba => ?_) h h'
  rw [comparePaths_swap, hba] at hab
  cases hab

/-- Sorting paths with different components lets them rise. -/
theorem rising_mergeSort {paths : List Bytes} (hnodup : paths.Nodup)
    (hinj : ∀ a ∈ paths, ∀ b ∈ paths, components a = components b → a = b) :
    Rising (paths.mergeSort fun a b => (comparePaths a b).isLE) := by
  have hsorted := List.pairwise_mergeSort comparePaths_le_trans comparePaths_le_total paths
  have hnodup' := (List.mergeSort_perm paths fun a b => (comparePaths a b).isLE).nodup_iff.2 hnodup
  refine (hsorted.and hnodup').imp_of_mem fun {a b} ha hb ⟨hle, hne⟩ => ?_
  rw [List.mem_mergeSort] at ha hb
  cases hcmp : comparePaths a b with
  | lt => rfl
  | eq => exact absurd (hinj a ha b hb (comparePaths_eq_iff.1 hcmp)) hne
  | gt =>
    rw [hcmp] at hle
    cases hle

end Calligraph.Files
