import Mathlib.Data.List.TakeWhile
import Calligraph.Proofs.FirstOccurrence
import Calligraph.Scope

/-!
# Candidates of longer paths

What a path may mean depends on its first name, and on how many `super`s it starts with. What comes
behind is carried along, so the candidates of a member are the members of the candidates of its
owner (`Scope.candidates_append`).
-/

namespace Calligraph

/-! ## Paths without repetitions -/

theorem eraseDups_map_append (xs : List (List String)) (tail : List String) :
    (xs.map (· ++ tail)).eraseDups = xs.eraseDups.map (· ++ tail) := by
  induction xs using List.reverseRecOn with
  | nil => rfl
  | append_singleton xs x ih =>
    have hmem : x ++ tail ∈ xs.map (· ++ tail) ↔ x ∈ xs := by simp
    rw [List.map_append, List.map_singleton, eraseDups_concat, eraseDups_concat, ih]
    by_cases hx : x ∈ xs
    · rw [if_pos (hmem.2 hx), if_pos hx]
    · rw [if_neg (mt hmem.1 hx), if_neg hx, List.map_append, List.map_singleton]

/-! ## Candidates -/

/-- The path goes up and nowhere else. -/
def OnlySupers (path : List String) : Prop :=
  ∀ name ∈ path, name = "super"

/-- `tail` does not go on with the `super`s of `path`. -/
def StopsClimbing (path tail : List String) : Prop :=
  OnlySupers path → tail.head? ≠ some "super"

instance (path : List String) : Decidable (OnlySupers path) :=
  inferInstanceAs (Decidable (∀ name ∈ path, name = "super"))

instance (path tail : List String) : Decidable (StopsClimbing path tail) :=
  inferInstanceAs (Decidable (OnlySupers path → tail.head? ≠ some "super"))

theorem OnlySupers.takeWhile_append {path : List String} (h : OnlySupers path)
    (tail : List String) :
    (path ++ tail).takeWhile (· == "super") = path ++ tail.takeWhile (· == "super") :=
  List.takeWhile_append_of_pos fun name hname => beq_iff_eq.2 (h name hname)

theorem not_stopsClimbing_iff {path tail : List String} :
    ¬ StopsClimbing path tail ↔ OnlySupers path ∧ tail.head? = some "super" := by
  rw [StopsClimbing, Classical.not_imp, Classical.not_not]

theorem StopsClimbing.of_ne {name : String} (h : name ≠ "super") (path : List String) :
    StopsClimbing path [name] := by
  intro _ hhead
  exact h (Option.some.inj hhead)

theorem takeWhile_supers_append {path tail : List String} (h : StopsClimbing path tail) :
    (path ++ tail).takeWhile (· == "super") = path.takeWhile (· == "super") := by
  rw [List.takeWhile_append]
  split
  · next hall =>
    -- All of `path` is passed, so the first name of `tail` counts, which is no `super`.
    have hself : path.takeWhile (· == "super") = path :=
      (List.takeWhile_prefix _).eq_of_length hall
    have honly : OnlySupers path := by
      intro name hname
      simpa using List.takeWhile_eq_self_iff.1 hself name hname
    have hnone : tail.takeWhile (· == "super") = [] := by
      cases tail with
      | nil => rfl
      | cons name rest =>
        have hname : name ≠ "super" := fun heq => h honly (by rw [heq]; rfl)
        exact List.takeWhile_cons_of_neg (by simpa using hname)
    rw [hnone, List.append_nil, hself]
  · rfl

theorem climbSupers_append (home : List String) {path tail : List String}
    (h : StopsClimbing path tail) :
    climbSupers home (path ++ tail) = climbSupers home path ++ tail := by
  have hle : (path.takeWhile (· == "super")).length ≤ path.length :=
    (List.takeWhile_prefix _).length_le
  simp only [climbSupers, climb, takeWhile_supers_append h, List.append_assoc,
    List.drop_append_of_le_length hle]

namespace Scope

/-- **The candidates of a longer path** are those of its first part with the rest behind each. -/
theorem candidates_append (s : Scope) {path tail : List String} (hpath : path ≠ [])
    (h : StopsClimbing path tail) :
    s.candidates (path ++ tail) = (s.candidates path).map (· ++ tail) := by
  match path, hpath with
  | first :: rest, _ =>
    rw [List.cons_append]
    unfold candidates
    dsimp only
    split
    · rfl
    · simp
    · have hclimb := climbSupers_append s.home h
      rw [List.cons_append] at hclimb
      rw [hclimb]
      rfl
    · cases s.selfType with
      | none => rfl
      | some type => simp
    · rw [← eraseDups_map_append]
      congr 1
      cases s.imports.lookup first <;> simp [Function.comp_def]

end Scope

end Calligraph
