import Calligraph.Binding
import Calligraph.Proofs.Syntax.Simple

/-!
# Routines by their text

A routine is known by its text: its path and the texts of its parameter types. The text of a simple
type tells the type (`Ty.reads`), whatever it is nested in, and so routines with one text have one
path and one list of parameter types.
-/

namespace Calligraph

namespace Wording

/-! ## What types start with -/

/-- The class of a first character; all that starts paths is one class. -/
def leadOf (c : Char) : Option Char :=
  if isNameChar c || c == ':' then none else some c

/-- What the text of a type starts with. -/
def lead : Ty → Option Char
  | .path _ => none
  | .reference .. => some '&'
  | .pointer .. => some '*'
  | .slice _ => some '['
  | .array .. => some '['
  | .tuple _ => some '('
  | .paren _ => some '('
  | _ => some '!'

theorem exists_plain {p : Path} (h : p.isSimple = true) :
    ∃ rooted g gs, p = .plain rooted (g :: gs) ∧ ∀ g' ∈ g :: gs, g'.isSimple = true := by
  cases p with
  | plain rooted gs =>
    simp only [Path.isSimple, Bool.and_eq_true] at h
    cases gs with
    | nil => simp at h
    | cons g gs => exact ⟨rooted, g, gs, rfl, Segment.allSimple_iff.1 h.2⟩
  | qualified => simp [Path.isSimple] at h

theorem exists_digits {t : Ty} {n : ConstText} (h : (Ty.array t n).isSimple = true) :
    ∃ text : String, n = .digits text ∧ t.isSimple = true ∧
      ∀ c ∈ text.toList, c.isDigit = true := by
  simp only [Ty.isSimple, Bool.and_eq_true] at h
  cases n with
  | digits text => exact ⟨text, rfl, h.1, by simpa [ConstText.isLiteral] using h.2⟩
  | _ => simp [ConstText.isLiteral] at h

theorem exists_lead {t : Ty} (h : t.isSimple = true) :
    ∃ c cs, ty.text t = c :: cs ∧ leadOf c = lead t := by
  cases t with
  | path p =>
    obtain ⟨rooted, g, gs, rfl, hgs⟩ := exists_plain h
    rw [text_path]
    cases rooted with
    | true => exact ⟨':', _, rfl, rfl⟩
    | false =>
      have hform := form_of_isSimple (hgs g List.mem_cons_self)
      obtain ⟨c, cs, hcs, hc⟩ := exists_cons_of_isIdentifier hform.isIdentifier_name
      have hjoined := joined_cons_append segment [':', ':'] g gs []
      rw [List.append_nil, hform.text_eq, hcs] at hjoined
      exact ⟨c, _, hjoined, by simp [leadOf, hc, lead]⟩
  | reference => exact ⟨_, _, text_reference .., rfl⟩
  | pointer => exact ⟨_, _, text_pointer .., rfl⟩
  | slice => exact ⟨_, _, text_slice .., rfl⟩
  | array t n =>
    obtain ⟨n, rfl, -⟩ := exists_digits h
    exact ⟨_, _, text_array .., rfl⟩
  | tuple => exact ⟨_, _, text_tuple .., rfl⟩
  | paren => exact ⟨_, _, text_paren .., rfl⟩
  | never => exact ⟨_, _, text_never, rfl⟩
  | _ => simp [Ty.isSimple] at h

theorem lead_of_cons {t : Ty} (h : t.isSimple = true) {c : Char} {cs r : List Char}
    (heq : c :: cs = ty.text t ++ r) : lead t = leadOf c := by
  obtain ⟨d, ds, htext, hd⟩ := exists_lead h
  rw [htext, List.cons_append] at heq
  rw [(List.cons.inj heq).1, hd]

theorem lead_ne {c : Char} (hc : c ∈ closers) (t : Ty) : lead t ≠ leadOf c := by
  have hlead : lead t ∈ [none, some '&', some '*', some '[', some '(', some '!'] := by
    cases t <;> simp [lead]
  intro h
  rw [h] at hlead
  simp only [closers, List.mem_cons, List.not_mem_nil, or_false] at hc
  rcases hc with rfl | rfl | rfl | rfl | rfl <;> exact absurd hlead (by decide)

theorem ty_closes {c : Char} {cs : List Char} (hc : c ∈ closers)
    (hsep : ∀ ds, c :: cs ≠ [',', ' '] ++ ds) : ty.Closes [',', ' '] (c :: cs) where
  follows := startsWith_cons.2 hc
  not_sep := hsep
  not_text t _ ht h := lead_ne hc t (lead_of_cons ht h)

/-- After a name no blank follows, so no type is taken for a mutable one. -/
theorem ty_text_ne_mut {t : Ty} (h : t.isSimple = true) {r : List Char} (hr : ty.Follows r)
    (cs : List Char) : ['m', 'u', 't', ' '] ++ cs ≠ ty.text t ++ r := by
  intro heq
  have hlead : lead t = none := lead_of_cons h heq
  cases t with
  | path p =>
    obtain ⟨rooted, g, gs, rfl, hgs⟩ := exists_plain h
    rw [text_path] at heq
    cases rooted with
    | true => simp at heq
    | false =>
      have hform := form_of_isSimple (hgs g List.mem_cons_self)
      have hafter := hform.follows (follows_after segment_follows_sep gs (segment_closes hr))
      rw [if_neg Bool.false_ne_true, List.nil_append, joined_cons_append, hform.text_eq,
        List.append_assoc] at heq
      obtain ⟨c, hc, rest, hrest⟩ := hafter
      -- The name ends where `mut` does, but a blank ends no name.
      have hmut : ['m', 'u', 't'].all isNameChar = true := by decide
      have hname := isNameChar_of_isIdentifier hform.isIdentifier_name
      have hword : ['m', 'u', 't'] ++ ' ' :: cs = _ := heq
      have hsplit := append_inj_of_word (List.all_eq_true.1 hmut) hname
        (fun _ hd => isNameChar_eq_false hd)
        (startsWith_cons.2 List.mem_cons_self) ⟨c, List.mem_cons_of_mem _ hc, rest, hrest⟩ hword
      rw [hrest] at hsplit
      rw [← (List.cons.inj hsplit.2).1] at hc
      exact absurd hc (by decide)
  | _ => simp [lead] at hlead

theorem lead_eq {t t' : Ty} (h : t.isSimple = true) (h' : t'.isSimple = true) {r s : List Char}
    (heq : ty.text t ++ r = ty.text t' ++ s) : lead t = lead t' := by
  obtain ⟨c, cs, htext, hc⟩ := exists_lead h
  rw [htext, List.cons_append] at heq
  rw [← hc, lead_of_cons h' heq]

/-! ## Reading

One lemma for each form of a type: it can be read if its parts can be read. -/

theorem reads_plain {n : String} (h : isIdentifier n = true) : segment.Reads (.plain n) := by
  intro g r s hg hr hs heq
  have hform := form_of_isSimple hg
  obtain ⟨hname, hrest⟩ := (Form.plain h).name_eq hform hr hs heq
  cases hform with
  | plain => exact ⟨congrArg Segment.plain hname, hrest⟩
  | angled _ hts => exact absurd hrest (argsText_ne hts hr _ s)

/-- Types between commas, up to what closes them. -/
theorem types_inj {ts ts' : List Ty} {r s : List Char} (hreads : ∀ t ∈ ts, ty.Reads t)
    (h : ∀ t ∈ ts, t.isSimple = true) (h' : ∀ t ∈ ts', t.isSimple = true)
    (hr : ty.Closes [',', ' '] r) (hs : ty.Closes [',', ' '] s)
    (heq : ty.joined [',', ' '] ts ++ r = ty.joined [',', ' '] ts' ++ s) : ts = ts' ∧ r = s :=
  joined_inj (fun _ => startsWith_cons.2 (by decide)) hreads h h' hr hs heq

theorem ty_closes_of_ne {c : Char} (hc : c ∈ closers) (hne : c ≠ ',') (cs : List Char) :
    ty.Closes [',', ' '] (c :: cs) :=
  ty_closes hc fun _ h => hne (List.cons.inj h).1

theorem reads_angled {n : String} {ts : List Ty} (hn : isIdentifier n = true) (hne : ts ≠ [])
    (hts : ∀ t ∈ ts, t.isSimple = true) (hreads : ∀ t ∈ ts, ty.Reads t) :
    segment.Reads (.angled n (ts.map .type)) := by
  intro g r s hg hr hs heq
  have hform := form_of_isSimple hg
  obtain ⟨hname, hrest⟩ := (Form.angled hn hne hts).name_eq hform hr hs heq
  cases hform with
  | plain => exact absurd hrest.symm (argsText_ne hne hs n r)
  | @angled n' ts' _ hne' hts' =>
    rw [argsText_angled n hne, argsText_angled n' hne'] at hrest
    simp only [List.cons_append, List.append_assoc, List.nil_append, List.cons.injEq,
      true_and] at hrest
    obtain ⟨rfl, hrs⟩ := types_inj hreads hts hts' (ty_closes_of_ne (by decide) (by decide) r)
      (ty_closes_of_ne (by decide) (by decide) s) hrest
    obtain rfl : n = n' := hname
    exact ⟨rfl, (List.cons.inj hrs).2⟩

theorem reads_path {rooted : Bool} {gs : List Segment}
    (h : (Ty.path (.plain rooted gs)).isSimple = true) (hreads : ∀ g ∈ gs, segment.Reads g) :
    ty.Reads (.path (.plain rooted gs)) := by
  intro t r s ht hr hs heq
  have hlead := lead_eq h ht heq
  obtain ⟨_, g, gs, hp, hgs⟩ := exists_plain h
  obtain ⟨rfl, rfl⟩ := Path.plain.inj hp
  cases t with
  | path p =>
    obtain ⟨rooted', g', gs', rfl, hgs'⟩ := exists_plain ht
    rw [text_path, text_path] at heq
    have hjoined {r s : List Char} (hr : ty.Follows r) (hs : ty.Follows s) :=
      joined_inj segment_follows_sep hreads hgs hgs' (segment_closes hr) (segment_closes hs)
    -- A path from the root starts with no name.
    have hroot (f : Segment) (hf : f.isSimple = true) (cs ds : List Char) :=
      segment_text_ne hf (by decide : isNameChar ':' = false) cs ds
    cases rooted <;> cases rooted' <;> simp only [Bool.false_eq_true, ↓reduceIte, List.nil_append,
      List.append_assoc] at heq
    · obtain ⟨hgs, hrs⟩ := hjoined hr hs heq
      exact ⟨by rw [hgs], hrs⟩
    · rw [joined_cons_append] at heq
      exact absurd heq.symm (hroot g (hgs g List.mem_cons_self) _ _)
    · rw [joined_cons_append segment _ g'] at heq
      exact absurd heq (hroot g' (hgs' g' List.mem_cons_self) _ _)
    · obtain ⟨hgs, hrs⟩ := hjoined hr hs (List.append_cancel_left heq)
      exact ⟨by rw [hgs], hrs⟩
  | _ => simp [lead] at hlead

theorem reads_reference {m : Bool} {t : Ty} (h : t.isSimple = true) (hreads : ty.Reads t) :
    ty.Reads (.reference none m t) := by
  intro t' r s ht' hr hs heq
  have hlead := lead_eq (t := .reference none m t) h ht' heq
  cases t' with
  | reference life m' t' =>
    obtain ⟨rfl, hsub⟩ : life = none ∧ t'.isSimple = true := by
      simpa [ty, Ty.isSimple] using ht'
    rw [text_reference, text_reference] at heq
    cases m <;> cases m' <;> simp only [Bool.false_eq_true, ↓reduceIte, List.nil_append,
      List.cons_append, List.cons.injEq, true_and] at heq
    · obtain ⟨rfl, hrs⟩ := hreads t' r s hsub hr hs heq
      exact ⟨rfl, hrs⟩
    · exact absurd heq.symm (ty_text_ne_mut h hr _)
    · exact absurd heq (ty_text_ne_mut hsub hs _)
    · obtain ⟨rfl, hrs⟩ := hreads t' r s hsub hr hs heq
      exact ⟨rfl, hrs⟩
  | _ => simp [lead] at hlead

theorem reads_pointer {m : Bool} {t : Ty} (h : t.isSimple = true) (hreads : ty.Reads t) :
    ty.Reads (.pointer m t) := by
  intro t' r s ht' hr hs heq
  have hlead := lead_eq (t := .pointer m t) h ht' heq
  cases t' with
  | pointer m' t' =>
    have hsub : t'.isSimple = true := ht'
    rw [text_pointer, text_pointer] at heq
    -- `mut` and `const` differ in their first letters.
    obtain rfl : m = m' := by cases m <;> cases m' <;> simp at heq ⊢
    simp only [List.cons_append, List.append_assoc, List.cons.injEq, true_and] at heq
    obtain ⟨rfl, hrs⟩ := hreads t' r s hsub hr hs (List.append_cancel_left heq)
    exact ⟨rfl, hrs⟩
  | _ => simp [lead] at hlead

theorem reads_slice {t : Ty} (h : t.isSimple = true) (hreads : ty.Reads t) :
    ty.Reads (.slice t) := by
  intro t' r s ht' hr hs heq
  have hlead := lead_eq (t := .slice t) h ht' heq
  have hclose (cs : List Char) : ty.Follows (']' :: cs) := startsWith_cons.2 (by decide)
  cases t' with
  | slice t' =>
    simp only [text_slice, List.cons_append, List.append_assoc, List.nil_append, List.cons.injEq,
      true_and] at heq
    have hsub : t'.isSimple = true := ht'
    obtain ⟨rfl, hrs⟩ := hreads t' _ _ hsub (hclose r) (hclose s) heq
    exact ⟨rfl, (List.cons.inj hrs).2⟩
  | array t' n =>
    obtain ⟨n, rfl, hsub, -⟩ := exists_digits ht'
    simp only [text_slice, text_array, List.cons_append, List.append_assoc, List.nil_append,
      List.cons.injEq, true_and] at heq
    obtain ⟨-, hrs⟩ := hreads t' _ _ hsub (hclose r) (startsWith_cons.2 (by decide)) heq
    simp at hrs
  | _ => simp [lead] at hlead

theorem reads_array {t : Ty} {n : ConstText} (h : (Ty.array t n).isSimple = true)
    (hreads : ty.Reads t) : ty.Reads (.array t n) := by
  intro t' r s ht' hr hs heq
  have hlead := lead_eq h ht' heq
  have hsemi (cs : List Char) : ty.Follows (';' :: cs) := startsWith_cons.2 (by decide)
  obtain ⟨n, rfl, -, hdigits⟩ := exists_digits h
  cases t' with
  | slice t' =>
    have hsub : t'.isSimple = true := ht'
    simp only [text_slice, text_array, List.cons_append, List.append_assoc, List.nil_append,
      List.cons.injEq, true_and] at heq
    obtain ⟨-, hrs⟩ := hreads t' _ _ hsub (hsemi _) (startsWith_cons.2 (by decide)) heq
    simp at hrs
  | array t' n' =>
    obtain ⟨n', rfl, hsub, hdigits'⟩ := exists_digits ht'
    simp only [text_array, List.cons_append, List.append_assoc, List.nil_append, List.cons.injEq,
      true_and] at heq
    obtain ⟨rfl, hlengths⟩ := hreads t' _ _ hsub (hsemi _) (hsemi _) heq
    simp only [List.cons.injEq, true_and] at hlengths
    have hset : ∀ c ∈ [']'], c.isDigit = false := List.forall_mem_singleton.2 (by decide)
    obtain ⟨hn, hrs⟩ := append_inj_of_word hdigits hdigits' hset
      (startsWith_cons.2 List.mem_cons_self) (startsWith_cons.2 List.mem_cons_self) hlengths
    obtain rfl := String.toList_inj.1 hn
    exact ⟨rfl, (List.cons.inj hrs).2⟩
  | _ => simp [lead] at hlead

/-- The types in a group, and what closes it. -/
inductive Group : Ty → List Ty → List Char → Prop
  | tuple (ts : List Ty) : Group (.tuple ts) ts (tupleClose ts)
  | paren (t : Ty) : Group (.paren t) [t] [')']

namespace Group

variable {t t' : Ty} {ts ts' : List Ty} {close close' : List Char}

theorem text_eq (h : Group t ts close) :
    ty.text t = '(' :: (ty.joined [',', ' '] ts ++ close) := by
  cases h with
  | tuple => exact text_tuple ts
  | paren t => exact text_paren t

theorem closes (h : Group t ts close) (r : List Char) : ty.Closes [',', ' '] (close ++ r) := by
  have hparen : ty.Closes [',', ' '] ([')'] ++ r) := ty_closes_of_ne (by decide) (by decide) r
  cases h with
  | tuple =>
    unfold tupleClose
    split
    · exact ty_closes (by decide) (by simp)
    · exact hparen
  | paren => exact hparen

/-- The types and what closes them tell tuples from parentheses. -/
theorem eq_of_append (h : Group t ts close) (h' : Group t' ts close') {r s : List Char}
    (heq : close ++ r = close' ++ s) : t = t' ∧ r = s := by
  cases h with
  | tuple =>
    cases h' with
    | tuple => exact ⟨rfl, List.append_cancel_left heq⟩
    | paren => simp [tupleClose] at heq
  | paren t =>
    cases h' with
    | tuple => simp [tupleClose] at heq
    | paren => exact ⟨rfl, List.append_cancel_left heq⟩

theorem exists_of_lead (h : t.isSimple = true) (hlead : lead t = some '(') :
    ∃ ts close, Group t ts close ∧ ∀ t ∈ ts, t.isSimple = true := by
  cases t with
  | tuple ts => exact ⟨_, _, .tuple ts, Ty.allSimple_iff.1 h⟩
  | paren t => exact ⟨_, _, .paren t, List.forall_mem_singleton.2 h⟩
  | _ => simp [lead] at hlead

theorem reads (h : Group t ts close) (ht : t.isSimple = true) (hts : ∀ t ∈ ts, t.isSimple = true)
    (hreads : ∀ t ∈ ts, ty.Reads t) : ty.Reads t := by
  intro t' r s ht' hr hs heq
  have hlead : lead t = some '(' := by cases h <;> rfl
  obtain ⟨ts', close', h', hts'⟩ := exists_of_lead ht' ((lead_eq ht ht' heq).symm.trans hlead)
  rw [h.text_eq, h'.text_eq] at heq
  simp only [List.cons_append, List.append_assoc, List.cons.injEq, true_and] at heq
  obtain ⟨rfl, hclose⟩ := types_inj hreads hts hts' (h.closes r) (h'.closes s) heq
  exact h.eq_of_append h' hclose

end Group

theorem reads_never : ty.Reads .never := by
  intro t r s ht hr hs heq
  have hlead := lead_eq (t := .never) rfl ht heq
  cases t with
  | never => exact ⟨rfl, List.append_cancel_left heq⟩
  | path | reference | pointer | slice | array | tuple | paren => simp [lead] at hlead
  | _ => simp [ty, Ty.isSimple] at ht

end Wording

open Wording

mutual

/-- The text of a simple type is that of no other, wherever it stands. -/
theorem Ty.reads : (t : Ty) → t.isSimple = true → ty.Reads t
  | .path (.plain rooted gs), h =>
    have hgs : Segment.allSimple gs = true := by
      simp only [Ty.isSimple, Path.isSimple, Bool.and_eq_true] at h
      exact h.2
    reads_path h (Segment.readsAll gs hgs)
  | .path (.qualified ..), h => by simp [Ty.isSimple, Path.isSimple] at h
  | .reference life m t, h => by
    obtain ⟨rfl, ht⟩ : life = none ∧ t.isSimple = true := by simpa [Ty.isSimple] using h
    exact reads_reference ht (Ty.reads t ht)
  | .pointer m t, h => reads_pointer h (Ty.reads t h)
  | .slice t, h => reads_slice h (Ty.reads t h)
  | .array t n, h => by
    have ht := h
    rw [Ty.isSimple, Bool.and_eq_true] at ht
    exact reads_array h (Ty.reads t ht.1)
  | .tuple ts, h => (Group.tuple ts).reads h (Ty.allSimple_iff.1 h) (Ty.readsAll ts h)
  | .paren t, h =>
    (Group.paren t).reads h (List.forall_mem_singleton.2 h)
      (List.forall_mem_singleton.2 (Ty.reads t h))
  | .never, _ => reads_never
  | .implTrait _, h | .dynTrait _, h | .function .., h | .infer, h | .expansion _, h | .silent, h =>
    by simp [Ty.isSimple] at h

theorem Ty.readsAll : (ts : List Ty) → Ty.allSimple ts = true → ∀ t ∈ ts, ty.Reads t
  | [], _ => by simp
  | t :: ts, h => by
    rw [Ty.allSimple, Bool.and_eq_true] at h
    exact List.forall_mem_cons.2 ⟨Ty.reads t h.1, Ty.readsAll ts h.2⟩

theorem Segment.reads : (g : Segment) → g.isSimple = true → segment.Reads g
  | .plain n, h => reads_plain (by simpa [Segment.isSimple] using h)
  | .angled n args, h => by
    simp only [Segment.isSimple, Bool.and_eq_true] at h
    have hargs := GenericArg.readsAll args h.2.2
    obtain ⟨ts, rfl, hts⟩ := GenericArg.exists_types h.2.2
    refine reads_angled h.1 (by simpa using h.2.1) hts fun t ht => ?_
    exact hargs t (List.mem_map_of_mem ht)
  | .arrow .., h => by simp [Segment.isSimple] at h

theorem Segment.readsAll : (gs : List Segment) → Segment.allSimple gs = true →
    ∀ g ∈ gs, segment.Reads g
  | [], _ => by simp
  | g :: gs, h => by
    rw [Segment.allSimple, Bool.and_eq_true] at h
    exact List.forall_mem_cons.2 ⟨Segment.reads g h.1, Segment.readsAll gs h.2⟩

theorem GenericArg.readsAll : (args : List GenericArg) → GenericArg.allSimple args = true →
    ∀ t, .type t ∈ args → ty.Reads t
  | [], _ => by simp
  | a :: args, h => by
    rw [GenericArg.allSimple, Bool.and_eq_true] at h
    intro t ht
    rcases List.mem_cons.1 ht with rfl | ht
    · exact Ty.reads t (by simpa [GenericArg.isSimple] using h.1)
    · exact GenericArg.readsAll args h.2 t ht

end

/-! ## Routines -/

namespace RoutineName

theorem toList_text (path : List String) (ts : List Ty) :
    (text ⟨path, ts.map Ty.render⟩).toList =
      name.joined [':', ':'] path ++ '(' :: (ty.joined [',', ' '] ts ++ [')']) := by
  simp [text, pathKey, ← toList_intercalate_name, ← toList_intercalate_ty]

theorem name_closes (cs : List Char) : name.Closes [':', ':'] ('(' :: cs) where
  follows := startsWith_cons.2 (by decide)
  not_sep ds h := by simp at h
  not_text _ ds hn := name_text_ne hn (by decide) cs ds

/-- Routines with simple parameter types have the same text only if they have the same path and the
same parameter types. -/
theorem text_eq_text_iff {n n' : RoutineName} {ts ts' : List Ty}
    (hpath : ∀ x ∈ n.path, isIdentifier x = true) (hpath' : ∀ x ∈ n'.path, isIdentifier x = true)
    (hparams : n.params = ts.map Ty.render) (hparams' : n'.params = ts'.map Ty.render)
    (hts : ∀ t ∈ ts, t.isSimple = true) (hts' : ∀ t ∈ ts', t.isSimple = true) :
    n.text = n'.text ↔ n.path = n'.path ∧ ts = ts' := by
  obtain ⟨path, params⟩ := n
  obtain ⟨path', params'⟩ := n'
  obtain rfl : params = _ := hparams
  obtain rfl : params' = _ := hparams'
  constructor
  · intro h
    have hchars := congrArg String.toList h
    rw [toList_text, toList_text] at hchars
    obtain ⟨hpaths, hrest⟩ := joined_inj (fun _ => startsWith_cons.2 (by decide))
      (fun x hx => name_reads (hpath x hx)) hpath hpath' (name_closes _) (name_closes _) hchars
    have hclose := ty_closes_of_ne (by decide : ')' ∈ closers) (by decide) []
    obtain ⟨htypes, -⟩ := types_inj (fun t ht => Ty.reads t (hts t ht)) hts hts' hclose hclose
      (List.cons.inj hrest).2
    exact ⟨hpaths, htypes⟩
  · rintro ⟨hpaths, rfl⟩
    obtain rfl : path = path' := hpaths
    rfl

/-- `&mut Vec<r#type>` and `[(u8,); 4]`. -/
def listAndArray : List Ty :=
  [.reference none true (.path (.plain false
      [.angled "Vec" [.type (.path (Path.ofName "r#type"))]])),
    .array (.tuple [.path (Path.ofName "u8")]) (.digits "4")]

/-- A parameter that is a pair is not two parameters. -/
theorem text_eq_text_iff_pair :
    (∀ x ∈ ["demo", "f"], isIdentifier x = true) ∧
      (∀ t ∈ [Ty.tuple listAndArray], t.isSimple = true) ∧
      (∀ t ∈ listAndArray, t.isSimple = true) ∧
      text ⟨["demo", "f"], [Ty.tuple listAndArray].map Ty.render⟩ ≠
        text ⟨["demo", "f"], listAndArray.map Ty.render⟩ := by
  have hpath : ∀ x ∈ ["demo", "f"], isIdentifier x = true := by decide
  have hpair : ∀ t ∈ [Ty.tuple listAndArray], t.isSimple = true :=
    Ty.allSimple_iff.1 (by decide)
  have happart : ∀ t ∈ listAndArray, t.isSimple = true := Ty.allSimple_iff.1 (by decide)
  refine ⟨hpath, hpair, happart, fun h => ?_⟩
  have htypes := ((text_eq_text_iff hpath hpath rfl rfl hpair happart).1 h).2
  simp [listAndArray] at htypes

end RoutineName

end Calligraph
