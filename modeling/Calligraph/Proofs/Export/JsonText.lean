import Calligraph.Export.Json
import Calligraph.Proofs.Export.Quoted

/-!
# Values read back from JSON

A reader of JSON that takes blanks anywhere between tokens, and `read_pretty`: it gives back every
value from its indented text, whatever follows the text.
-/

namespace Calligraph.JsonValue

/-! ## Texts -/

/-- The value of a hexadecimal digit. -/
def hexValue (c : Char) : Nat :=
  "0123456789abcdef".toList.idxOf c

theorem hexValue_hexDigit {n : Nat} (h : n < 16) : hexValue (hexDigit n) = n := by
  have hall : ∀ k : Fin 16, hexValue (hexDigit k) = k := by decide
  exact hall ⟨n, h⟩

/-- The character that a text goes on with. -/
def readChar : List Char → Option (Char × List Char)
  | '\\' :: 'n' :: rest => some ('\n', rest)
  | '\\' :: 'r' :: rest => some ('\r', rest)
  | '\\' :: 't' :: rest => some ('\t', rest)
  | '\\' :: 'b' :: rest => some ('\x08', rest)
  | '\\' :: 'f' :: rest => some ('\x0c', rest)
  | '\\' :: 'u' :: '0' :: '0' :: x :: y :: rest =>
    some (Char.ofNat (16 * hexValue x + hexValue y), rest)
  | '\\' :: c :: rest => some (c, rest)
  | c :: rest => some (c, rest)
  | [] => none

theorem readChar_escapeChar (c : Char) (rest : List Char) :
    readChar (escapeChar c ++ rest) = some (c, rest) := by
  unfold escapeChar
  split
  · rfl
  · rfl
  · rfl
  · rfl
  · rfl
  · next hquote hslash hbreak hreturn htab =>
    have hc : Char.ofNat c.toNat = c := Char.ofNat_toNat c
    dsimp only
    split
    · next h => rw [h] at hc; rw [← hc]; rfl
    · split
      · next h => rw [h] at hc; rw [← hc]; rfl
      · split
        · next h =>
          have hx := hexValue_hexDigit (n := c.toNat / 16) (by omega)
          have hy := hexValue_hexDigit (n := c.toNat % 16) (by omega)
          show some (Char.ofNat (16 * hexValue _ + hexValue _), rest) = _
          rw [hx, hy, Nat.div_add_mod, hc]
        · rw [List.singleton_append]
          unfold readChar
          split <;> simp_all

theorem length_lt_of_readChar {cs rest : List Char} {c : Char} (h : readChar cs = some (c, rest)) :
    rest.length < cs.length := by
  unfold readChar at h
  split at h
  case h_9 => cases h
  all_goals
    cases h
    simp only [List.length_cons]
    omega

theorem escapeChar_ne_quote (c : Char) (rest : List Char) : escapeChar c ≠ '"' :: rest := by
  unfold escapeChar
  split
  · simp
  · simp
  · simp
  · simp
  · simp
  · next hquote _ _ _ _ =>
    dsimp only
    split
    · simp
    · split
      · simp
      · split
        · simp
        · simpa using fun h => absurd h hquote

/-- How texts are written between quotes. -/
def escape : Escape where
  write := escapeChar
  read := readChar
  read_write := readChar_escapeChar
  length_lt := length_lt_of_readChar
  not_quote := escapeChar_ne_quote

theorem quoted_toList (text : String) :
    (quoted text).toList = '"' :: (text.toList.flatMap escape.write ++ ['"']) := by
  simp [quoted, escape]

/-! ## Values -/

/-- The text without the blanks it starts with. -/
def skip (cs : List Char) : List Char :=
  cs.dropWhile fun c => c = ' ' || c = '\n' || c = '\r' || c = '\t'

mutual

/-- The value that a text starts with, and the rest of the text. No more than `fuel` brackets,
separators and values are read. -/
def read (fuel : Nat) (cs : List Char) : Option (JsonValue × List Char) :=
  match fuel with
  | 0 => none
  | n + 1 =>
    match (skip cs).takeWhile Char.isDigit with
    | d :: ds =>
      some (.number (Nat.ofDigitChars 10 (d :: ds) 0), (skip cs).dropWhile Char.isDigit)
    | [] =>
      match skip cs with
      | '"' :: rest => do
        let (chars, rest) ← escape.readQuoted rest
        return (.text (String.ofList chars), rest)
      | 't' :: 'r' :: 'u' :: 'e' :: rest => some (.boolean true, rest)
      | 'f' :: 'a' :: 'l' :: 's' :: 'e' :: rest => some (.boolean false, rest)
      | '[' :: inner =>
        match skip inner with
        | ']' :: rest => some (.list [], rest)
        | _ => do
          let (items, rest) ← readItems n inner
          return (.list items, rest)
      | '\x7b' :: inner =>
        match skip inner with
        | '\x7d' :: rest => some (.object [], rest)
        | _ => do
          let (fields, rest) ← readFields n inner
          return (.object fields, rest)
      | _ => none

/-- The items up to the closing bracket, one at least. -/
def readItems (fuel : Nat) (cs : List Char) : Option (List JsonValue × List Char) :=
  match fuel with
  | 0 => none
  | n + 1 => do
    let (v, rest) ← read n cs
    match skip rest with
    | ']' :: rest => return ([v], rest)
    | ',' :: rest => do
      let (items, rest) ← readItems n rest
      return (v :: items, rest)
    | _ => none

/-- The fields up to the closing bracket, one at least. -/
def readFields (fuel : Nat) (cs : List Char) : Option (List (String × JsonValue) × List Char) :=
  match fuel with
  | 0 => none
  | n + 1 =>
    match skip cs with
    | '"' :: rest => do
      let (name, rest) ← escape.readQuoted rest
      match skip rest with
      | ':' :: rest => do
        let (v, rest) ← read n rest
        match skip rest with
        | '\x7d' :: rest => return ([(String.ofList name, v)], rest)
        | ',' :: rest => do
          let (fields, rest) ← readFields n rest
          return ((String.ofList name, v) :: fields, rest)
        | _ => none
      | _ => none
    | _ => none

end

theorem skip_margin (level : Nat) (cs : List Char) :
    skip ((margin level).toList ++ cs) = skip cs := by
  have hall : ∀ c ∈ (margin level).toList,
      (c = ' ' || c = '\n' || c = '\r' || c = '\t') = true := by
    intro c hc
    simp only [margin, String.toList_append, String.toList_ofList, List.mem_append,
      List.mem_replicate] at hc
    rcases hc with hc | ⟨-, rfl⟩
    · simp_all
    · rfl
  exact List.dropWhile_append_of_pos hall

theorem skip_digit {c : Char} (hc : c.isDigit) (cs : List Char) : skip (c :: cs) = c :: cs := by
  have hblank : (c = ' ' || c = '\n' || c = '\r' || c = '\t') = false := by
    rw [Bool.eq_false_iff]
    intro h
    simp only [Bool.or_eq_true, decide_eq_true_eq] at h
    rcases h with ((rfl | rfl) | rfl) | rfl <;> exact absurd hc (by decide)
  exact List.dropWhile_cons_of_neg (by simp [hblank])

/-- What is read depends on the text behind the blanks alone. -/
theorem read_congr (n : Nat) {cs ds : List Char} (h : skip cs = skip ds) :
    read n cs = read n ds := by
  cases n with
  | zero => rfl
  | succ n =>
    unfold read
    rw [h]

theorem read_margin (n level : Nat) (cs : List Char) :
    read n ((margin level).toList ++ cs) = read n cs :=
  read_congr n (skip_margin level cs)

/-! ## Indented texts -/

theorem toList_text (level : Nat) (s : String) :
    ((text s).pretty level).toList = '"' :: (s.toList.flatMap escape.write ++ ['"']) :=
  quoted_toList s

theorem toList_number (level n : Nat) : ((number n).pretty level).toList = Nat.toDigits 10 n := by
  show (toString n).toList = _
  rw [Nat.toString_eq_ofList_toDigits, String.toList_ofList]

theorem toList_boolean (level : Nat) (b : Bool) :
    ((boolean b).pretty level).toList =
      if b then ['t', 'r', 'u', 'e'] else ['f', 'a', 'l', 's', 'e'] := by
  show (if b then "true" else "false").toList = _
  cases b <;> rfl

theorem toList_list_nil (level : Nat) : ((list []).pretty level).toList = ['[', ']'] := by
  show "[]".toList = _
  rfl

theorem toList_list_cons (level : Nat) (v : JsonValue) (vs : List JsonValue) :
    ((list (v :: vs)).pretty level).toList =
      '[' :: ((",".intercalate (prettyItems (level + 1) (v :: vs))).toList ++
        ((margin level).toList ++ [']'])) := by
  show ("[" ++ ",".intercalate (prettyItems (level + 1) (v :: vs)) ++ margin level ++ "]").toList = _
  simp

theorem toList_object_nil (level : Nat) :
    ((object []).pretty level).toList = ['\x7b', '\x7d'] := by
  show "\x7b\x7d".toList = _
  rfl

theorem toList_object_cons (level : Nat) (f : String × JsonValue) (fs : List (String × JsonValue)) :
    ((object (f :: fs)).pretty level).toList =
      '\x7b' :: ((",".intercalate (prettyFields (level + 1) (f :: fs))).toList ++
        ((margin level).toList ++ ['\x7d'])) := by
  show ("\x7b" ++ ",".intercalate (prettyFields (level + 1) (f :: fs)) ++ margin level ++
    "\x7d").toList = _
  simp

/-- The items behind the first one, each after a comma. -/
def moreItems (level : Nat) : List JsonValue → List Char
  | [] => []
  | v :: vs => ',' :: (",".intercalate (prettyItems level (v :: vs))).toList

theorem toList_items (level : Nat) (v : JsonValue) (vs : List JsonValue) :
    (",".intercalate (prettyItems level (v :: vs))).toList =
      (margin level).toList ++ ((v.pretty level).toList ++ moreItems level vs) := by
  cases vs <;> simp [prettyItems, moreItems]

/-- The fields behind the first one, each after a comma. -/
def moreFields (level : Nat) : List (String × JsonValue) → List Char
  | [] => []
  | f :: fs => ',' :: (",".intercalate (prettyFields level (f :: fs))).toList

theorem toList_fields (level : Nat) (name : String) (v : JsonValue)
    (fs : List (String × JsonValue)) :
    (",".intercalate (prettyFields level ((name, v) :: fs))).toList =
      (margin level).toList ++ '"' :: (name.toList.flatMap escape.write ++
        '"' :: ':' :: ' ' :: ((v.pretty level).toList ++ moreFields level fs)) := by
  cases fs <;> simp [prettyFields, moreFields, quoted_toList]

theorem exists_digit_cons (n : Nat) : ∃ c cs, Nat.toDigits 10 n = c :: cs ∧ c.isDigit := by
  obtain ⟨c, cs, hcs⟩ := List.exists_cons_of_ne_nil (Nat.toDigits_ne_nil (n := n) (b := 10))
  refine ⟨c, cs, hcs, Nat.isDigit_of_mem_toDigits (b := 10) (n := n) (by decide) (by decide) ?_⟩
  rw [hcs]
  exact List.mem_cons_self

theorem read_blank (n : Nat) (cs : List Char) : read n (' ' :: cs) = read n cs :=
  read_congr n rfl

/-- A value is not written like a blank or a closing bracket. -/
theorem skip_pretty (level : Nat) (v : JsonValue) (rest : List Char) :
    ∃ c cs, skip ((v.pretty level).toList ++ rest) = c :: cs ∧ c ≠ ']' := by
  match v with
  | .text s => rw [toList_text]; exact ⟨'"', _, rfl, by decide⟩
  | .number n =>
    obtain ⟨c, cs, hcs, hc⟩ := exists_digit_cons n
    rw [toList_number, hcs, List.cons_append, skip_digit hc]
    refine ⟨c, _, rfl, ?_⟩
    rintro rfl
    exact absurd hc (by decide)
  | .boolean true => rw [toList_boolean]; exact ⟨'t', _, rfl, by decide⟩
  | .boolean false => rw [toList_boolean]; exact ⟨'f', _, rfl, by decide⟩
  | .list [] => rw [toList_list_nil]; exact ⟨'[', _, rfl, by decide⟩
  | .list (v :: vs) => rw [toList_list_cons]; exact ⟨'[', _, rfl, by decide⟩
  | .object [] => rw [toList_object_nil]; exact ⟨'\x7b', _, rfl, by decide⟩
  | .object (f :: fs) => rw [toList_object_cons]; exact ⟨'\x7b', _, rfl, by decide⟩

/-! ## Reading what is written -/

/-- A number ends where a text of this form follows. -/
def EndsNumber (cs : List Char) : Prop :=
  ∀ c rest, cs = c :: rest → c.isDigit = false

theorem takeWhile_digits (n : Nat) {rest : List Char} (h : EndsNumber rest) :
    (Nat.toDigits 10 n ++ rest).takeWhile Char.isDigit = Nat.toDigits 10 n ∧
    (Nat.toDigits 10 n ++ rest).dropWhile Char.isDigit = rest := by
  have hdigits : ∀ c ∈ Nat.toDigits 10 n, c.isDigit := fun c hc =>
    Nat.isDigit_of_mem_toDigits (b := 10) (n := n) (by decide) (by decide) hc
  rw [List.takeWhile_append_of_pos hdigits, List.dropWhile_append_of_pos hdigits]
  cases rest with
  | nil => simp
  | cons c rest =>
    have hc := h c rest rfl
    rw [List.takeWhile_cons_of_neg (by simp [hc]), List.dropWhile_cons_of_neg (by simp [hc])]
    simp

theorem endsNumber_comma (cs : List Char) : EndsNumber (',' :: cs) := by
  rintro _ _ ⟨⟩
  rfl

theorem endsNumber_margin (level : Nat) (cs : List Char) :
    EndsNumber ((margin level).toList ++ cs) := by
  rw [margin, String.toList_append]
  rintro _ _ ⟨⟩
  rfl

section Steps

variable {n level outer : Nat} {cs rest rest' : List Char}

theorem read_text (s : String) :
    read (n + 1) ('"' :: (s.toList.flatMap escape.write ++ '"' :: rest)) =
      some (text s, rest) := by
  show (escape.readQuoted _).bind _ = _
  rw [Escape.readQuoted_write]
  show some (text (String.ofList s.toList), rest) = _
  rw [String.ofList_toList]

theorem read_number (k : Nat) (hrest : EndsNumber rest) :
    read (n + 1) (Nat.toDigits 10 k ++ rest) = some (number k, rest) := by
  obtain ⟨htake, hdrop⟩ := takeWhile_digits k hrest
  obtain ⟨c, ds, hds, hc⟩ := exists_digit_cons k
  have hskip : skip (Nat.toDigits 10 k ++ rest) = Nat.toDigits 10 k ++ rest := by
    rw [hds, List.cons_append, skip_digit hc]
  rw [read, hskip, htake, hdrop, hds]
  show some (number (Nat.ofDigitChars 10 (c :: ds) 0), rest) = _
  rw [← hds, Nat.ofDigitChars_ten_toDigits]

theorem read_list {items : List JsonValue}
    (hopen : ∃ c ds, skip cs = c :: ds ∧ c ≠ ']') (h : readItems n cs = some (items, rest)) :
    read (n + 1) ('[' :: cs) = some (list items, rest) := by
  obtain ⟨c, ds, hskip, hc⟩ := hopen
  show (match skip cs with
    | ']' :: rest => some (list [], rest)
    | _ => (readItems n cs).bind fun (items, rest) => some (list items, rest)) = _
  rw [hskip, h]
  split
  · next heq => exact absurd (List.cons.inj heq).1 hc
  · rfl

theorem readItems_last {v : JsonValue}
    (h : read n cs = some (v, (margin outer).toList ++ ']' :: rest)) :
    readItems (n + 1) ((margin level).toList ++ cs) = some ([v], rest) := by
  have hclose : skip ((margin outer).toList ++ ']' :: rest) = ']' :: rest := skip_margin _ _
  rw [readItems, read_margin, h]
  simp [hclose]

theorem readItems_more {v : JsonValue} {vs : List JsonValue} (h : read n cs = some (v, ',' :: rest))
    (hrest : readItems n rest = some (vs, rest')) :
    readItems (n + 1) ((margin level).toList ++ cs) = some (v :: vs, rest') := by
  have hsep : skip (',' :: rest) = ',' :: rest := rfl
  rw [readItems, read_margin, h]
  simp [hsep, hrest]

theorem read_object {fields : List (String × JsonValue)} (hopen : ∃ ds, skip cs = '"' :: ds)
    (h : readFields n cs = some (fields, rest)) :
    read (n + 1) ('\x7b' :: cs) = some (object fields, rest) := by
  obtain ⟨ds, hskip⟩ := hopen
  show (match skip cs with
    | '\x7d' :: rest => some (object [], rest)
    | _ => (readFields n cs).bind fun (fields, rest) => some (object fields, rest)) = _
  rw [hskip, h]
  rfl

theorem skip_name (name : String) (cs : List Char) :
    skip ((margin level).toList ++ '"' :: (name.toList.flatMap escape.write ++ cs)) =
      '"' :: (name.toList.flatMap escape.write ++ cs) :=
  skip_margin _ _

theorem readFields_last (level : Nat) (name : String) {v : JsonValue}
    (h : read n cs = some (v, (margin outer).toList ++ '\x7d' :: rest)) :
    readFields (n + 1) ((margin level).toList ++ '"' :: (name.toList.flatMap escape.write ++
      '"' :: ':' :: ' ' :: cs)) = some ([(name, v)], rest) := by
  have hcolon : skip (':' :: ' ' :: cs) = ':' :: ' ' :: cs := rfl
  have hclose : skip ((margin outer).toList ++ '\x7d' :: rest) = '\x7d' :: rest := skip_margin _ _
  rw [readFields, skip_name]
  simp [Escape.readQuoted_write, hcolon, read_blank, h, hclose]

theorem readFields_more (level : Nat) (name : String) {v : JsonValue}
    {fs : List (String × JsonValue)} (h : read n cs = some (v, ',' :: rest))
    (hrest : readFields n rest = some (fs, rest')) :
    readFields (n + 1) ((margin level).toList ++ '"' :: (name.toList.flatMap escape.write ++
      '"' :: ':' :: ' ' :: cs)) = some ((name, v) :: fs, rest') := by
  have hcolon : skip (':' :: ' ' :: cs) = ':' :: ' ' :: cs := rfl
  have hsep : skip (',' :: rest) = ',' :: rest := rfl
  rw [readFields, skip_name]
  simp [Escape.readQuoted_write, hcolon, read_blank, h, hsep, hrest]

end Steps

mutual

/-- **A value is read back from its indented text**, whatever follows the text. -/
theorem read_pretty (level : Nat) {rest : List Char} (hrest : EndsNumber rest) :
    (v : JsonValue) → (n : Nat) → (v.pretty level).toList.length ≤ n →
      read n ((v.pretty level).toList ++ rest) = some (v, rest)
  | v, 0, hn => by
    obtain ⟨c, cs, hcs, -⟩ := skip_pretty level v []
    rw [List.length_eq_zero_iff.1 (Nat.le_zero.1 hn)] at hcs
    cases hcs
  | .text s, n + 1, _ => by
    rw [toList_text, List.cons_append, List.append_assoc, List.singleton_append]
    exact read_text s
  | .number k, n + 1, _ => by
    rw [toList_number]
    exact read_number k hrest
  | .boolean b, n + 1, _ => by
    rw [toList_boolean]
    cases b <;> rfl
  | .list [], n + 1, _ => by
    rw [toList_list_nil]
    rfl
  | .list (v :: vs), n + 1, hn => by
    rw [toList_list_cons] at hn ⊢
    simp only [List.length_cons, List.length_append] at hn
    have hitems := readItems_pretty (level + 1) level rest (v :: vs) n (by simp) (by omega)
    rw [List.cons_append, List.append_assoc, List.append_assoc, List.singleton_append]
    refine read_list ?_ hitems
    rw [toList_items, List.append_assoc, skip_margin, List.append_assoc]
    exact skip_pretty _ v _
  | .object [], n + 1, _ => by
    rw [toList_object_nil]
    rfl
  | .object ((name, v) :: fs), n + 1, hn => by
    rw [toList_object_cons] at hn ⊢
    simp only [List.length_cons, List.length_append] at hn
    have hfields :=
      readFields_pretty (level + 1) level rest ((name, v) :: fs) n (by simp) (by omega)
    rw [List.cons_append, List.append_assoc, List.append_assoc, List.singleton_append]
    refine read_object ?_ hfields
    rw [toList_fields, List.append_assoc, skip_margin]
    exact ⟨_, rfl⟩

theorem readItems_pretty (level outer : Nat) (rest : List Char) :
    (items : List JsonValue) → (n : Nat) → items ≠ [] →
      (",".intercalate (prettyItems level items)).toList.length < n →
      readItems n ((",".intercalate (prettyItems level items)).toList ++
        ((margin outer).toList ++ ']' :: rest)) = some (items, rest)
  | [], _, hne, _ => absurd rfl hne
  | _ :: _, 0, _, hn => absurd hn (Nat.not_lt_zero _)
  | [v], n + 1, _, hn => by
    rw [toList_items] at hn ⊢
    simp only [moreItems, List.append_nil, List.length_append] at hn ⊢
    rw [List.append_assoc]
    exact readItems_last (read_pretty level (endsNumber_margin _ _) v n (by omega))
  | v :: w :: vs, n + 1, _, hn => by
    rw [toList_items] at hn ⊢
    simp only [moreItems, List.length_append, List.length_cons] at hn ⊢
    have hrest := readItems_pretty level outer rest (w :: vs) n (by simp) (by omega)
    rw [List.append_assoc, List.append_assoc, List.cons_append]
    exact readItems_more (read_pretty level (endsNumber_comma _) v n (by omega)) hrest

theorem readFields_pretty (level outer : Nat) (rest : List Char) :
    (fields : List (String × JsonValue)) → (n : Nat) → fields ≠ [] →
      (",".intercalate (prettyFields level fields)).toList.length < n →
      readFields n ((",".intercalate (prettyFields level fields)).toList ++
        ((margin outer).toList ++ '\x7d' :: rest)) = some (fields, rest)
  | [], _, hne, _ => absurd rfl hne
  | _ :: _, 0, _, hn => absurd hn (Nat.not_lt_zero _)
  | [(name, v)], n + 1, _, hn => by
    rw [toList_fields] at hn ⊢
    simp only [moreFields, List.append_nil, List.length_append, List.length_cons] at hn ⊢
    have hread := read_pretty level (endsNumber_margin outer ('\x7d' :: rest)) v n (by omega)
    simpa only [List.append_assoc, List.cons_append] using readFields_last level name hread
  | (name, v) :: f :: fs, n + 1, _, hn => by
    rw [toList_fields] at hn ⊢
    simp only [moreFields, List.length_append, List.length_cons] at hn ⊢
    have hrest := readFields_pretty level outer rest (f :: fs) n (by simp) (by omega)
    have hfields := readFields_more level name
      (read_pretty level (endsNumber_comma _) v n (by omega)) hrest
    simpa only [List.append_assoc, List.cons_append] using hfields

end

end Calligraph.JsonValue
