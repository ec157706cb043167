/-!
# Reading quoted texts

A text between quotes is written character by character. If each character can be told from what
follows it and none looks like the closing quote, the text can be read back, whatever stands behind
the quote (`Escape.readQuoted_write`).
-/

namespace Calligraph

/-- A way to write characters between quotes, with a reader for single characters. -/
structure Escape where
  write : Char → List Char
  /-- The character that a text starts with, and the rest of the text. -/
  read : List Char → Option (Char × List Char)
  read_write (c : Char) (rest : List Char) : read (write c ++ rest) = some (c, rest)
  length_lt {cs rest : List Char} {c : Char} : read cs = some (c, rest) → rest.length < cs.length
  not_quote (c : Char) (rest : List Char) : write c ≠ '"' :: rest

namespace Escape

/-- The text up to the closing quote, and what stands behind the quote. -/
def readQuoted (e : Escape) (cs : List Char) : Option (List Char × List Char) :=
  match cs with
  | '"' :: rest => some ([], rest)
  | cs =>
    match h : e.read cs with
    | none => none
    | some (c, rest) =>
      have := e.length_lt h
      (readQuoted e rest).map fun (text, rest) => (c :: text, rest)
termination_by cs.length

/-- An open quote is read on behind its first character. -/
theorem readQuoted_write_cons (e : Escape) (c : Char) (cs : List Char) :
    e.readQuoted (e.write c ++ cs) =
      (e.readQuoted cs).map fun (text, rest) => (c :: text, rest) := by
  have hread := e.read_write c cs
  have hquote : ∀ rest, e.write c ++ cs ≠ '"' :: rest := by
    intro rest h
    cases hw : e.write c with
    | nil =>
      rw [hw, List.nil_append] at hread
      exact absurd (e.length_lt hread) (Nat.lt_irrefl _)
    | cons d ds =>
      rw [hw, List.cons_append] at h
      exact e.not_quote c ds (by rw [hw, (List.cons.inj h).1])
  generalize e.write c ++ cs = text at hread hquote
  rw [readQuoted.eq_2 e text hquote]
  split
  · next h => rw [h] at hread; cases hread
  · next c' rest h =>
    rw [h] at hread
    cases hread
    rfl

/-- **A quoted text is read back.** -/
theorem readQuoted_write (e : Escape) (text rest : List Char) :
    e.readQuoted (text.flatMap e.write ++ '"' :: rest) = some (text, rest) := by
  induction text with
  | nil => rw [List.flatMap_nil, List.nil_append, readQuoted]
  | cons c text ih =>
    rw [List.flatMap_cons, List.append_assoc, readQuoted_write_cons, ih]
    rfl

end Escape

end Calligraph
