import Calligraph.Files.System

/-!
# Entries and their places

What stands in a file system is told by places. Entries that hold others are compared by what they
are themselves (`FileEntry.bare`), so that a change at one place is seen there only
(`FileEntry.bareAt_set`).
-/

namespace Calligraph

open Files (Name)

namespace FileEntry

/-! ## Places -/

theorem mem_of_lookup {entries : List (Name × FileEntry)} {name : Name} {e : FileEntry}
    (h : entries.lookup name = some e) : (name, e) ∈ entries := by
  obtain ⟨before, after, rfl, -⟩ := List.lookup_eq_some_iff.1 h
  simp

/-- A name stands among the entries if something is found under it. -/
theorem mem_map_fst_iff {entries : List (Name × FileEntry)} {name : Name} :
    name ∈ entries.map Prod.fst ↔ ∃ e, entries.lookup name = some e := by
  constructor
  · intro hmem
    cases hlookup : entries.lookup name with
    | some e => exact ⟨e, rfl⟩
    | none =>
      obtain ⟨x, hx, rfl⟩ := List.mem_map.1 hmem
      simpa using List.lookup_eq_none_iff.1 hlookup x hx
  · rintro ⟨e, he⟩
    exact List.mem_map.2 ⟨(name, e), mem_of_lookup he, rfl⟩

theorem get?_append (e : FileEntry) (p q : List Name) :
    e.get? (p ++ q) = (e.get? p).bind (get? q) := by
  induction p generalizing e with
  | nil => rfl
  | cons name p ih =>
    cases e with
    | directory refusals entries =>
      simp only [List.cons_append, get?]
      cases entries.lookup name with
      | none => rfl
      | some below => exact ih below
    | file refusals content => rfl
    | link target => rfl
    | special file => rfl

variable {e : FileEntry} {place : List Name} {refusals : DirectoryRefusals}
  {entries : List (Name × FileEntry)}

theorem get?_concat (h : e.get? place = some (.directory refusals entries)) (name : Name) :
    e.get? (place ++ [name]) = entries.lookup name := by
  rw [get?_append, h]
  simp [get?]

theorem exists_of_get?_cons {n : Name} {below : FileEntry} (h : e.get? (n :: place) = some below) :
    ∃ r es child,
      e = .directory r es ∧ es.lookup n = some child ∧ child.get? place = some below := by
  cases e with
  | directory r es =>
    obtain ⟨child, hchild, hbelow⟩ := Option.bind_eq_some_iff.1 h
    exact ⟨r, es, child, rfl, hchild, hbelow⟩
  | file r content => cases h
  | link target => cases h
  | special file => cases h

/-- Below a place there is something only if a directory stands there. -/
theorem exists_directory {name : Name} {below : FileEntry}
    (h : e.get? (place ++ [name]) = some below) :
    ∃ r es, e.get? place = some (.directory r es) ∧ es.lookup name = some below := by
  rw [get?_append] at h
  obtain ⟨d, hd, hbelow⟩ := Option.bind_eq_some_iff.1 h
  obtain ⟨r, es, child, rfl, hchild, hnil⟩ := exists_of_get?_cons hbelow
  exact ⟨r, es, hd, hchild.trans hnil⟩

/-- What holds of a directory and of all that is below its entries holds of all that is below it. -/
theorem forall_get?_directory {P : List Name → FileEntry → Prop}
    (hself : P [] (.directory refusals entries))
    (hbelow : ∀ x ∈ entries, ∀ place e, x.2.get? place = some e → P (x.1 :: place) e) :
    ∀ place e, (directory refusals entries).get? place = some e → P place e := by
  intro place e h
  cases place with
  | nil =>
    cases h
    exact hself
  | cons name place =>
    obtain ⟨child, hchild, hfound⟩ := Option.bind_eq_some_iff.1 h
    exact hbelow _ (mem_of_lookup hchild) place e hfound

theorem forall_get?_leaf {P : List Name → FileEntry → Prop}
    (hleaf : ∀ refusals entries, e ≠ .directory refusals entries) (hself : P [] e) :
    ∀ place below, e.get? place = some below → P place below := by
  intro place below h
  cases place with
  | nil =>
    cases h
    exact hself
  | cons name place =>
    obtain ⟨r, es, -, heq, -⟩ := exists_of_get?_cons h
    exact absurd heq (hleaf r es)

/-! ## Well-formed trees -/

/-- In every directory, each entry has a name of its own. -/
def WellNamed (e : FileEntry) : Prop :=
  ∀ place refusals entries, e.get? place = some (.directory refusals entries) →
    (entries.map Prod.fst).Nodup

/-- No link stands in the tree. -/
def NoLinks (e : FileEntry) : Prop :=
  ∀ place target, e.get? place ≠ some (.link target)

/-! ## What an entry is by itself -/

/-- The entry without what stands below it. -/
def bare : FileEntry → FileEntry
  | .directory refusals _ => .directory refusals []
  | e => e

/-- What stands at a place by itself. -/
def bareAt (e : FileEntry) (place : List Name) : Option FileEntry :=
  (e.get? place).map bare

/-! ## Changes at one place -/

theorem lookup_setEntry (name n : Name) (e : FileEntry) (entries : List (Name × FileEntry)) :
    (setEntry name e entries).lookup n = if n = name then some e else entries.lookup n := by
  induction entries with
  | nil =>
    by_cases hn : n = name
    · simp [setEntry, hn]
    · simp [setEntry, List.lookup_cons, beq_false_of_ne hn, hn]
  | cons x rest ih =>
    obtain ⟨m, old⟩ := x
    by_cases hm : m = name
    · subst hm
      by_cases hn : n = m
      · simp [setEntry, hn]
      · simp [setEntry, List.lookup_cons, beq_false_of_ne hn, hn]
    · by_cases hn : n = m
      · subst hn
        simp [setEntry, hm]
      · simp [setEntry, List.lookup_cons, beq_false_of_ne hn, hm, ih]

theorem get?_set_self (h : e.get? place = some (.directory refusals entries)) (name : Name)
    (new : FileEntry) :
    (e.set (place ++ [name]) new).get? (place ++ [name]) = some new := by
  induction place generalizing e with
  | nil =>
    obtain rfl : e = .directory refusals entries := Option.some.inj h
    simp [set, get?, lookup_setEntry]
  | cons n place ih =>
    obtain ⟨r, es, child, rfl, hchild, hplace⟩ := exists_of_get?_cons h
    simpa [set, get?, lookup_setEntry, hchild] using ih hplace

/-- The entry is a file, below which nothing can stand. -/
def IsFile : FileEntry → Prop
  | .file _ _ => True
  | _ => False

theorem IsFile.get?_eq_none {file : FileEntry} (h : file.IsFile) {q : List Name} (hq : q ≠ []) :
    file.get? q = none := by
  cases file with
  | file r content =>
    cases q with
    | nil => exact absurd rfl hq
    | cons name q => rfl
  | directory r es => cases h
  | link target => cases h
  | special f => cases h

/-- **A file that is put in** where there was a file or nothing leaves everything else as it is. -/
theorem bareAt_set (h : e.get? place = some (.directory refusals entries)) {name : Name}
    (hold : ∀ old, entries.lookup name = some old → old.IsFile) {new : FileEntry}
    (hnew : new.IsFile) {q : List Name} (hq : q ≠ place ++ [name]) :
    (e.set (place ++ [name]) new).bareAt q = e.bareAt q := by
  unfold bareAt
  induction place generalizing e q with
  | nil =>
    obtain rfl : e = .directory refusals entries := Option.some.inj h
    cases q with
    | nil => rfl
    | cons n q =>
      by_cases hn : n = name
      · have hne : q ≠ [] := fun hnil => hq (by rw [hn, hnil]; rfl)
        have hbelow : (entries.lookup name).bind (get? q) = none := by
          cases hlookup : entries.lookup name with
          | none => rfl
          | some old => exact (hold old hlookup).get?_eq_none hne
        simp [set, get?, lookup_setEntry, hn, hbelow, hnew.get?_eq_none hne]
      · simp [set, get?, lookup_setEntry, hn]
  | cons m place ih =>
    obtain ⟨r, es, child, rfl, hchild, hplace⟩ := exists_of_get?_cons h
    cases q with
    | nil => rfl
    | cons n q =>
      by_cases hn : n = m
      · have hne : q ≠ place ++ [name] := fun heq => hq (by rw [hn, heq]; rfl)
        simpa [set, get?, lookup_setEntry, hn, hchild] using ih hplace hne
      · simp [set, get?, lookup_setEntry, hn]

end FileEntry

end Calligraph
