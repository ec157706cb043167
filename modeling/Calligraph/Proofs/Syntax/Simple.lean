import Calligraph.Proofs.Syntax.Wording
import Calligraph.Syntax.Render
import Calligraph.Token.Scan

/-!
# Simple types and their texts

A type is simple if its text leaves nothing out: no lifetime, no bound and no value but an integer.
Here is what the texts of simple types are made of, as wordings of names, of segments of paths and
of types.
-/

namespace Calligraph

open Scan Text

/-! ## Simple types -/

/-- The text of an identifier, raw or not. -/
def isIdentifier (name : String) : Bool :=
  match name.toList with
  | 'r' :: '#' :: body => isIdentText body
  | cs => isIdentText cs

/-- An integer in decimal digits. -/
def ConstText.isLiteral : ConstText → Bool
  | .digits text => text.toList.all Char.isDigit
  | _ => false

mutual

/-- Types whose text leaves nothing out: paths with type arguments, and what is built from them
without lifetimes. -/
def Ty.isSimple : Ty → Bool
  | .path p => p.isSimple
  | .reference life _ target => life.isNone && target.isSimple
  | .pointer _ target => target.isSimple
  | .slice element => element.isSimple
  | .array element length => element.isSimple && length.isLiteral
  | .tuple elements => Ty.allSimple elements
  | .paren inner => inner.isSimple
  | .never => true
  | _ => false

def Ty.allSimple : List Ty → Bool
  | [] => true
  | t :: rest => t.isSimple && Ty.allSimple rest

def Path.isSimple : Path → Bool
  | .plain _ segments => !segments.isEmpty && Segment.allSimple segments
  | .qualified .. => false

def Segment.isSimple : Segment → Bool
  | .plain name => isIdentifier name
  | .angled name args => isIdentifier name && (!args.isEmpty && GenericArg.allSimple args)
  | .arrow .. => false

def Segment.allSimple : List Segment → Bool
  | [] => true
  | s :: rest => s.isSimple && Segment.allSimple rest

def GenericArg.isSimple : GenericArg → Bool
  | .type ty => ty.isSimple
  | _ => false

def GenericArg.allSimple : List GenericArg → Bool
  | [] => true
  | a :: rest => a.isSimple && GenericArg.allSimple rest

end

theorem Ty.allSimple_iff {ts : List Ty} : Ty.allSimple ts = true ↔ ∀ t ∈ ts, t.isSimple = true := by
  induction ts with
  | nil => simp [Ty.allSimple]
  | cons t ts ih => simp [Ty.allSimple, ih]

theorem Segment.allSimple_iff {ss : List Segment} :
    Segment.allSimple ss = true ↔ ∀ s ∈ ss, s.isSimple = true := by
  induction ss with
  | nil => simp [Segment.allSimple]
  | cons s ss ih => simp [Segment.allSimple, ih]

/-- Simple arguments are types. -/
theorem GenericArg.exists_types {args : List GenericArg} (h : GenericArg.allSimple args = true) :
    ∃ ts : List Ty, args = ts.map .type ∧ ∀ t ∈ ts, t.isSimple = true := by
  induction args with
  | nil => exact ⟨[], rfl, by simp⟩
  | cons a args ih =>
    rw [GenericArg.allSimple, Bool.and_eq_true] at h
    obtain ⟨ts, rfl, hts⟩ := ih h.2
    cases a with
    | type t => exact ⟨t :: ts, rfl, List.forall_mem_cons.2 ⟨h.1, hts⟩⟩
    | _ => simp [GenericArg.isSimple] at h

/-! ## Names -/

/-- The characters of identifiers, raw ones included. -/
def isNameChar (c : Char) : Bool :=
  isIdentContinue c || c == '#'

theorem isIdentContinue_of_isIdentStart {c : Char} (h : isIdentStart c = true) :
    isIdentContinue c = true := by
  unfold isIdentStart at h
  unfold isIdentContinue
  split at h
  · next hc => grind [Char.isAlphanum]
  · next hc => simp [hc, h]

theorem isNameChar_of_isIdentText {cs : List Char} (h : isIdentText cs = true) :
    ∀ c ∈ cs, isNameChar c = true := by
  cases cs with
  | nil => simp
  | cons c cs =>
    simp only [isIdentText, Bool.and_eq_true, List.all_eq_true] at h
    intro d hd
    rcases List.mem_cons.1 hd with rfl | hd
    · simp [isNameChar, isIdentContinue_of_isIdentStart h.1]
    · simp [isNameChar, h.2 d hd]

theorem isNameChar_of_isIdentifier {name : String} (h : isIdentifier name = true) :
    ∀ c ∈ name.toList, isNameChar c = true := by
  unfold isIdentifier at h
  split at h
  · next body hbody =>
    rw [hbody]
    intro c hc
    rcases List.mem_cons.1 hc with rfl | hc
    · decide
    rcases List.mem_cons.1 hc with rfl | hc
    · decide
    exact isNameChar_of_isIdentText h c hc
  · exact isNameChar_of_isIdentText h

theorem exists_cons_of_isIdentifier {name : String} (h : isIdentifier name = true) :
    ∃ c cs, name.toList = c :: cs ∧ isNameChar c = true := by
  cases hcs : name.toList with
  | nil => simp [isIdentifier, hcs, isIdentText] at h
  | cons c cs => exact ⟨c, cs, rfl, isNameChar_of_isIdentifier h c (by simp [hcs])⟩

/-- What ends a type. -/
def closers : List Char := [',', ';', '>', ']', ')']

/-- What ends a name, in a type or before parameters. -/
def nameEnds : List Char := '<' :: ':' :: '(' :: closers

theorem mem_nameEnds_of_mem_closers {c : Char} (h : c ∈ closers) : c ∈ nameEnds := by
  simp only [nameEnds, List.mem_cons]
  exact .inr (.inr (.inr h))

/-- What ends a name is no part of it, and neither is a blank. -/
theorem isNameChar_eq_false {c : Char} (h : c ∈ ' ' :: nameEnds) : isNameChar c = false := by
  simp only [nameEnds, closers, List.mem_cons, List.not_mem_nil, or_false] at h
  rcases h with rfl | rfl | rfl | rfl | rfl | rfl | rfl | rfl | rfl <;> decide

namespace Wording

/-- Names, as they stand in paths. -/
def name : Wording String where
  text := String.toList
  Has n := isIdentifier n = true
  Follows := StartsWith nameEnds

/-- Segments of paths. -/
def segment : Wording Segment where
  text g := g.render.toList
  Has g := g.isSimple = true
  Follows := StartsWith (':' :: closers)

def ty : Wording Ty where
  text t := t.render.toList
  Has t := t.isSimple = true
  Follows := StartsWith closers

theorem name_reads {n : String} (h : isIdentifier n = true) : name.Reads n := by
  intro n' r s h' hr hs heq
  obtain ⟨hn, hrs⟩ := append_inj_of_word (isNameChar_of_isIdentifier h)
    (isNameChar_of_isIdentifier h') (fun _ hc => isNameChar_eq_false (List.mem_cons_of_mem _ hc))
    hr hs heq
  exact ⟨String.toList_inj.1 hn, hrs⟩

/-- A name does not start with what is no part of names. -/
theorem name_text_ne {n : String} (h : isIdentifier n = true) {c : Char}
    (hc : isNameChar c = false) (cs ds : List Char) : c :: cs ≠ n.toList ++ ds := by
  obtain ⟨d, rest, hn, hd⟩ := exists_cons_of_isIdentifier h
  rintro heq
  rw [hn, List.cons_append] at heq
  rw [(List.cons.inj heq).1, hd] at hc
  cases hc

/-! ## The texts -/

theorem toList_intercalate_name (path : List String) :
    ("::".intercalate path).toList = name.joined [':', ':'] path := by
  rw [String.toList_intercalate]
  rfl

theorem toList_intercalate_ty (ts : List Ty) :
    (", ".intercalate (ts.map Ty.render)).toList = ty.joined [',', ' '] ts := by
  rw [String.toList_intercalate, List.map_map]
  rfl

theorem renderAll_ty (ts : List Ty) : Ty.renderAll ts = ts.map Ty.render := by
  induction ts with
  | nil => rw [Ty.renderAll, List.map_nil]
  | cons t ts ih => rw [Ty.renderAll, ih, List.map_cons]

theorem renderAll_segment (gs : List Segment) : Segment.renderAll gs = gs.map Segment.render := by
  induction gs with
  | nil => rw [Segment.renderAll, List.map_nil]
  | cons g gs ih => rw [Segment.renderAll, ih, List.map_cons]

theorem renderAll_type (ts : List Ty) :
    GenericArg.renderAll (ts.map .type) = ts.map Ty.render := by
  induction ts with
  | nil => simp [GenericArg.renderAll]
  | cons t ts ih => simp [GenericArg.renderAll, GenericArg.render, ih]

/-- The text of the arguments of a segment. -/
def argsText : Segment → List Char
  | .angled _ args => (Calligraph.angled (GenericArg.renderAll args)).toList
  | _ => []

theorem argsText_angled (n : String) {ts : List Ty} (hts : ts ≠ []) :
    argsText (.angled n (ts.map .type)) = '<' :: (ty.joined [',', ' '] ts ++ ['>']) := by
  simp [argsText, angled, renderAll_type, hts, ← toList_intercalate_ty]

theorem text_path (rooted : Bool) (gs : List Segment) :
    ty.text (.path (.plain rooted gs)) =
      (if rooted then [':', ':'] else []) ++ segment.joined [':', ':'] gs := by
  have hgs : ("::".intercalate (gs.map Segment.render)).toList = segment.joined [':', ':'] gs := by
    rw [String.toList_intercalate, List.map_map]
    rfl
  show ((if rooted then "::" else "") ++ "::".intercalate (Segment.renderAll gs)).toList = _
  cases rooted <;> simp [renderAll_segment, ← hgs]

theorem text_reference (life : Option String) (m : Bool) (t : Ty) :
    ty.text (.reference life m t) =
      '&' :: ((if m then ['m', 'u', 't', ' '] else []) ++ ty.text t) := by
  show ((if m then "&mut " else "&") ++ t.render).toList = '&' :: (_ ++ t.render.toList)
  cases m <;> simp

theorem text_pointer (m : Bool) (t : Ty) :
    ty.text (.pointer m t) =
      '*' :: ((if m then ['m', 'u', 't', ' '] else ['c', 'o', 'n', 's', 't', ' ']) ++
        ty.text t) := by
  show ((if m then "*mut " else "*const ") ++ t.render).toList = '*' :: (_ ++ t.render.toList)
  cases m <;> simp

theorem text_slice (t : Ty) : ty.text (.slice t) = '[' :: (ty.text t ++ [']']) := by
  show ("[" ++ t.render ++ "]").toList = '[' :: (t.render.toList ++ _)
  simp

theorem text_array (t : Ty) (n : String) :
    ty.text (.array t (.digits n)) = '[' :: (ty.text t ++ ';' :: ' ' :: (n.toList ++ [']'])) := by
  show ("[" ++ t.render ++ "; " ++ n ++ "]").toList = '[' :: (t.render.toList ++ _)
  simp

/-- What closes a tuple: after a single element a comma stays. -/
def tupleClose (ts : List Ty) : List Char :=
  if ts.length = 1 then [',', ')'] else [')']

theorem text_tuple (ts : List Ty) :
    ty.text (.tuple ts) = '(' :: (ty.joined [',', ' '] ts ++ tupleClose ts) := by
  rw [← toList_intercalate_ty]
  match ts with
  | [] => rfl
  | [t] =>
    show ("(" ++ t.render ++ ",)").toList = _
    simp [tupleClose]
  | t :: t' :: ts =>
    show ("(" ++ ", ".intercalate (Ty.renderAll (t :: t' :: ts)) ++ ")").toList = _
    simp [renderAll_ty, tupleClose]

theorem text_paren (t : Ty) : ty.text (.paren t) = '(' :: (ty.joined [',', ' '] [t] ++ [')']) := by
  show ("(" ++ t.render ++ ")").toList = _
  simp [joined, ty]

theorem text_never : ty.text .never = ['!'] :=
  rfl

/-! ## Segments -/

/-- A simple segment is a name, with or without types. -/
inductive Form : Segment → Prop
  | plain {n : String} : isIdentifier n = true → Form (.plain n)
  | angled {n : String} {ts : List Ty} : isIdentifier n = true → ts ≠ [] →
      (∀ t ∈ ts, t.isSimple = true) → Form (.angled n (ts.map .type))

theorem form_of_isSimple {g : Segment} (h : g.isSimple = true) : Form g := by
  cases g with
  | plain n => exact .plain (by simpa [Segment.isSimple] using h)
  | angled n args =>
    simp only [Segment.isSimple, Bool.and_eq_true] at h
    obtain ⟨ts, rfl, hts⟩ := GenericArg.exists_types h.2.2
    exact .angled h.1 (by simpa using h.2.1) hts
  | arrow => simp [Segment.isSimple] at h

namespace Form

variable {g g' : Segment}

theorem isIdentifier_name (h : Form g) : isIdentifier g.name = true := by
  cases h with
  | plain hn => exact hn
  | angled hn => exact hn

theorem text_eq (h : Form g) : segment.text g = g.name.toList ++ argsText g := by
  cases h <;> simp [segment, Segment.render, Segment.name, argsText]

/-- A name does not go on behind a segment or in its arguments. -/
theorem follows (h : Form g) {r : List Char} (hr : segment.Follows r) :
    name.Follows (argsText g ++ r) := by
  cases h with
  | plain =>
    obtain ⟨c, hc, rest, rfl⟩ := hr
    rcases List.mem_cons.1 hc with rfl | hc
    · exact startsWith_cons.2 (by decide)
    · exact startsWith_cons.2 (mem_nameEnds_of_mem_closers hc)
  | angled _ hts =>
    rw [argsText_angled _ hts]
    exact startsWith_cons.2 (by decide)

theorem name_eq (h : Form g) (h' : Form g') {r s : List Char} (hr : segment.Follows r)
    (hs : segment.Follows s) (heq : segment.text g ++ r = segment.text g' ++ s) :
    g.name = g'.name ∧ argsText g ++ r = argsText g' ++ s := by
  rw [h.text_eq, h'.text_eq, List.append_assoc, List.append_assoc] at heq
  exact name_reads h.isIdentifier_name _ _ _ h'.isIdentifier_name (h.follows hr) (h'.follows hs) heq

end Form

/-- Arguments are not taken for what follows a segment. -/
theorem argsText_ne {ts : List Ty} (hts : ts ≠ []) {r : List Char} (hr : segment.Follows r)
    (n : String) (cs : List Char) : r ≠ argsText (.angled n (ts.map .type)) ++ cs := by
  obtain ⟨c, hc, rest, rfl⟩ := hr
  rw [argsText_angled n hts]
  intro h
  rw [(List.cons.inj h).1] at hc
  exact absurd hc (by decide)

theorem segment_text_ne {g : Segment} (h : g.isSimple = true) {c : Char}
    (hc : isNameChar c = false) (cs ds : List Char) : c :: cs ≠ segment.text g ++ ds := by
  have hform := form_of_isSimple h
  rw [hform.text_eq, List.append_assoc]
  exact name_text_ne hform.isIdentifier_name hc cs _

theorem segment_follows_sep (cs : List Char) : segment.Follows ([':', ':'] ++ cs) :=
  startsWith_cons.2 List.mem_cons_self

theorem segment_closes {r : List Char} (hr : ty.Follows r) : segment.Closes [':', ':'] r := by
  obtain ⟨c, hc, cs, rfl⟩ := hr
  refine ⟨startsWith_cons.2 (List.mem_cons_of_mem _ hc), fun ds h => ?_, fun g ds hg => ?_⟩
  · rw [(List.cons.inj h).1] at hc
    exact absurd hc (by decide)
  · have hends := List.mem_cons_of_mem ' ' (mem_nameEnds_of_mem_closers hc)
    exact segment_text_ne hg (isNameChar_eq_false hends) cs ds

end Wording

end Calligraph
