import Mathlib.Data.List.Induction
import Mathlib.Data.List.Nodup

/-!
# Lists without repetitions

`List.eraseDups` keeps the first occurrence of everything in a list, so what is left is in the order
of the first occurrences.
-/

namespace Calligraph

theorem eraseDups_concat {α : Type} [BEq α] [LawfulBEq α] (xs : List α) (x : α) :
    (xs ++ [x]).eraseDups = if x ∈ xs then xs.eraseDups else xs.eraseDups ++ [x] := by
  rw [List.eraseDups_append]
  by_cases hx : x ∈ xs <;> simp [hx, List.removeAll, List.eraseDups_cons]

theorem nodup_eraseDups {α : Type} [BEq α] [LawfulBEq α] (xs : List α) : xs.eraseDups.Nodup := by
  induction xs using List.reverseRecOn with
  | nil => exact List.nodup_nil
  | append_singleton xs x ih =>
    rw [eraseDups_concat]
    split
    · exact ih
    · next hx =>
      rw [← List.concat_eq_append]
      exact ih.concat (mt List.mem_eraseDups.1 hx)

/-- Without repetitions, things stand in the order in which they first occur. -/
theorem pairwise_idxOf_eraseDups {α : Type} [BEq α] [LawfulBEq α] (xs : List α) :
    xs.eraseDups.Pairwise fun a b => xs.idxOf a < xs.idxOf b := by
  induction xs using List.reverseRecOn with
  | nil => exact List.Pairwise.nil
  | append_singleton xs x ih =>
    have hsame {a : α} (ha : a ∈ xs.eraseDups) : (xs ++ [x]).idxOf a = xs.idxOf a :=
      List.idxOf_append_of_mem (List.mem_eraseDups.1 ha)
    have hold : xs.eraseDups.Pairwise fun a b => (xs ++ [x]).idxOf a < (xs ++ [x]).idxOf b := by
      refine ih.imp_of_mem fun ha hb hlt => ?_
      rw [hsame ha, hsame hb]
      exact hlt
    rw [eraseDups_concat]
    split
    · exact hold
    · next hx =>
      refine List.pairwise_append.2 ⟨hold, List.pairwise_singleton _ _, fun a ha b hb => ?_⟩
      obtain rfl : b = x := List.mem_singleton.1 hb
      have hlt : xs.idxOf a < xs.length := List.idxOf_lt_length_iff.2 (List.mem_eraseDups.1 ha)
      rw [hsame ha, List.idxOf_append_of_notMem hx]
      omega

section Key

variable {α β : Type} [BEq β] (key : α → β)

theorem map_eraseDupsBy_loop (xs kept : List α) :
    (List.eraseDupsBy.loop (fun a b => key a == key b) xs kept).map key =
      List.eraseDupsBy.loop (· == ·) (xs.map key) (kept.map key) := by
  induction xs generalizing kept with
  | nil => simp [List.eraseDupsBy.loop]
  | cons x xs ih =>
    have hany : (kept.map key).any (key x == ·) = kept.any fun b => key x == key b := by
      rw [List.any_map]
      rfl
    rw [List.map_cons, List.eraseDupsBy.loop, List.eraseDupsBy.loop, hany]
    cases kept.any fun b => key x == key b with
    | true => exact ih kept
    | false => exact ih (x :: kept)

/-- Where things are told apart by a key, the keys are left without repetitions. -/
theorem map_eraseDupsBy (xs : List α) :
    (xs.eraseDupsBy fun a b => key a == key b).map key = (xs.map key).eraseDups :=
  map_eraseDupsBy_loop key xs []

theorem mem_of_mem_eraseDupsBy_loop {r : α → α → Bool} {x : α} {xs kept : List α}
    (h : x ∈ List.eraseDupsBy.loop r xs kept) : x ∈ kept ∨ x ∈ xs := by
  induction xs generalizing kept with
  | nil => exact .inl (List.mem_reverse.1 h)
  | cons y xs ih =>
    rw [List.eraseDupsBy.loop] at h
    split at h
    · exact (ih h).imp_right (List.mem_cons_of_mem _)
    · rcases ih h with hkept | hrest
      · rcases List.mem_cons.1 hkept with rfl | hkept
        · exact .inr List.mem_cons_self
        · exact .inl hkept
      · exact .inr (List.mem_cons_of_mem _ hrest)

theorem mem_of_mem_eraseDupsBy {r : α → α → Bool} {x : α} {xs : List α}
    (h : x ∈ xs.eraseDupsBy r) : x ∈ xs :=
  (mem_of_mem_eraseDupsBy_loop h).resolve_left List.not_mem_nil

end Key

end Calligraph
