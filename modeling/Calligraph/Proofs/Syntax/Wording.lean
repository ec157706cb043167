import Mathlib.Data.List.Basic

/-!
# Texts that can be read in one way

A wording gives things texts and says what may follow them. A thing can be read if nothing else with
the same wording starts a text that goes on as is allowed. What can be read by itself can be read in
a list with separators between the items (`Wording.joined_inj`), if what closes the list looks
neither like a separator nor like an item.
-/

namespace Calligraph

/-- The text starts with one of the characters. -/
def StartsWith (set : List Char) (cs : List Char) : Prop :=
  ∃ c ∈ set, ∃ rest, cs = c :: rest

@[simp] theorem startsWith_cons {set : List Char} {c : Char} {cs : List Char} :
    StartsWith set (c :: cs) ↔ c ∈ set := by
  simp [StartsWith]

/-- A word ends where its characters end. -/
theorem append_inj_of_word {p : Char → Bool} {xs ys r s : List Char} (hxs : ∀ c ∈ xs, p c)
    (hys : ∀ c ∈ ys, p c) {set : List Char} (hset : ∀ c ∈ set, p c = false)
    (hr : StartsWith set r) (hs : StartsWith set s) (h : xs ++ r = ys ++ s) : xs = ys ∧ r = s := by
  have hword {zs t : List Char} (hzs : ∀ c ∈ zs, p c) (ht : StartsWith set t) :
      (zs ++ t).takeWhile p = zs := by
    obtain ⟨c, hc, rest, rfl⟩ := ht
    rw [List.takeWhile_append_of_pos hzs, List.takeWhile_cons_of_neg (by simp [hset c hc]),
      List.append_nil]
  have hxy : xs = ys := by rw [← hword hxs hr, h, hword hys hs]
  subst hxy
  exact ⟨rfl, List.append_cancel_left h⟩

/-- Texts of things, and what may follow them. -/
structure Wording (α : Type) where
  text : α → List Char
  /-- The things that have such a text. -/
  Has : α → Prop
  Follows : List Char → Prop

namespace Wording

variable {α : Type}

/-- The text of `x` is that of nothing else, whatever follows. -/
def Reads (w : Wording α) (x : α) : Prop :=
  ∀ y r s, w.Has y → w.Follows r → w.Follows s → w.text x ++ r = w.text y ++ s → x = y ∧ r = s

/-- The texts of a list, with `sep` between them. -/
def joined (w : Wording α) (sep : List Char) (xs : List α) : List Char :=
  sep.intercalate (xs.map w.text)

/-- What follows the first item of a list that is closed by `r`. -/
def after (w : Wording α) (sep : List Char) (xs : List α) (r : List Char) : List Char :=
  match xs with
  | [] => r
  | _ :: _ => sep ++ (w.joined sep xs ++ r)

theorem joined_cons_append (w : Wording α) (sep : List Char) (x : α) (xs : List α)
    (r : List Char) : w.joined sep (x :: xs) ++ r = w.text x ++ w.after sep xs r := by
  cases xs with
  | nil => simp [joined, after]
  | cons y ys => simp [joined, after, List.append_assoc]

/-- What can close a list: it looks neither like a separator nor like an item. -/
structure Closes (w : Wording α) (sep r : List Char) : Prop where
  follows : w.Follows r
  not_sep (cs : List Char) : r ≠ sep ++ cs
  not_text (x : α) (cs : List Char) : w.Has x → r ≠ w.text x ++ cs

variable {w : Wording α} {sep : List Char}

theorem follows_after (hsep : ∀ cs, w.Follows (sep ++ cs)) (xs : List α) {r : List Char}
    (hr : w.Closes sep r) : w.Follows (w.after sep xs r) := by
  cases xs with
  | nil => exact hr.follows
  | cons x xs => exact hsep _

/-- A list whose items can be read can be read. -/
theorem joined_inj (hsep : ∀ cs, w.Follows (sep ++ cs)) {xs ys : List α} {r s : List Char}
    (hreads : ∀ x ∈ xs, w.Reads x) (hxs : ∀ x ∈ xs, w.Has x) (hys : ∀ y ∈ ys, w.Has y)
    (hr : w.Closes sep r) (hs : w.Closes sep s)
    (h : w.joined sep xs ++ r = w.joined sep ys ++ s) : xs = ys ∧ r = s := by
  induction xs generalizing ys with
  | nil =>
    cases ys with
    | nil => exact ⟨rfl, h⟩
    | cons y ys =>
      rw [joined_cons_append] at h
      exact absurd h (hr.not_text y _ (hys y List.mem_cons_self))
  | cons x xs ih =>
    rw [joined_cons_append] at h
    cases ys with
    | nil => exact absurd h.symm (hs.not_text x _ (hxs x List.mem_cons_self))
    | cons y ys =>
      rw [joined_cons_append] at h
      obtain ⟨rfl, hafter⟩ := hreads x List.mem_cons_self y _ _ (hys y List.mem_cons_self)
        (follows_after hsep xs hr) (follows_after hsep ys hs) h
      cases xs with
      | nil =>
        cases ys with
        | nil => exact ⟨rfl, hafter⟩
        | cons z ys => exact absurd hafter (hr.not_sep _)
      | cons z xs =>
        cases ys with
        | nil => exact absurd hafter.symm (hs.not_sep _)
        | cons z' ys =>
          obtain ⟨hrest, hrs⟩ := ih (fun v hv => hreads v (List.mem_cons_of_mem _ hv))
            (fun v hv => hxs v (List.mem_cons_of_mem _ hv))
            (fun v hv => hys v (List.mem_cons_of_mem _ hv)) (List.append_cancel_left hafter)
          exact ⟨by rw [hrest], hrs⟩

end Wording

end Calligraph
