import Calligraph.Proofs.Files.Walk

/-!
# Writing a file

A write does one of three things (`FileSystem.write_cases`). It is refused, and then nothing is
changed; or it fills a file, perhaps not with all that was to be written, and then the file is found
again under its path and everything else is as it was; or it hands all over to a special file, and
then no file is changed.
-/

namespace Calligraph

open Files (Name)

theorem Bytes.upTo_nil (room : Option Nat) : upTo room [] = [] := by
  cases room <;> simp [upTo]

theorem Bytes.upTo_eq_self_iff {room : Option Nat} {bytes : Bytes} :
    bytes.upTo room = bytes ↔ ¬ (bytes.upTo room).length < bytes.length := by
  cases room with
  | none => simp [upTo]
  | some room =>
    rw [upTo, List.length_take]
    constructor
    · intro htake
      have := congrArg List.length htake
      rw [List.length_take] at this
      omega
    · intro hlength
      exact List.take_of_length_le (by omega)

namespace FileSystem

variable {fs fs' : FileSystem} {created : Bool} {links : Nat} {place target : List Name}
  {pieces : List Bytes} {spot : Spot} {path content : Bytes}

/-! ## Paths after a change -/

/-- `fs'` is `fs` with a file of the given content at `place`, where there was a file or nothing,
and with nothing else changed. -/
structure Filled (fs : FileSystem) (place : List Name) (content : Bytes) (fs' : FileSystem) :
    Prop where
  before {e : FileEntry} : fs.root.get? place = some e → e.IsFile
  after : ∃ refusals, fs'.root.get? place = some (.file refusals content)
  elsewhere {q : List Name} : q ≠ place → fs'.root.bareAt q = fs.root.bareAt q
  workDir_eq : fs'.workDir = fs.workDir
  room_eq : fs'.room = fs.room

namespace Filled

variable (h : fs.Filled target content fs')

include h

theorem keeps : fs.Keeps fs' := by
  intro place e hget
  by_cases hplace : place = target
  · subst hplace
    obtain ⟨refusals, hafter⟩ := h.after
    exact ⟨_, hafter, .inr ⟨h.before hget, trivial⟩⟩
  · have hbare := h.elsewhere hplace
    unfold FileEntry.bareAt at hbare
    rw [hget, Option.map_some, Option.map_eq_some_iff] at hbare
    obtain ⟨e', hget', hsame⟩ := hbare
    exact ⟨e', hget', .inl hsame⟩

theorem resolve_eq (hspot : spot.place = target) (hpath : fs.spot created path = .ok spot) :
    fs'.resolve path = .ok target := by
  rw [← hspot]
  refine h.keeps.resolve_eq h.workDir_eq hpath ?_
  rintro dir name rfl
  obtain rfl := hspot
  obtain ⟨refusals, hafter⟩ := h.after
  exact ⟨_, hafter, by simp⟩

end Filled

/-- A name that is free is not there. -/
theorem Leads.free_eq {dir : List Name} {name : Name}
    (h : Leads fs created links place pieces (.free dir name)) :
    fs.root.get? (dir ++ [name]) = none := by
  generalize hspot : Spot.free dir name = spot at h
  induction h with
  | done => cases hspot
  | slash _ _ ih | here _ _ _ ih | up _ _ _ ih | name _ _ _ _ _ ih | link _ _ _ _ ih =>
    exact ih hspot
  | free _ hfree =>
    cases hspot
    exact hfree

/-- A path that is to be written leads where it leads otherwise. -/
theorem resolve_of_spot (hpath : fs.spot created path = .ok (.taken place)) :
    fs.resolve path = .ok place :=
  (Keeps.refl fs).resolve_eq rfl hpath nofun

/-! ## What a write does -/

/-- A file is filled where the directory for it is there. -/
theorem filled_fill (refusals : FileRefusals) (content : Bytes) (name : Name)
    (hdir : ∃ r entries, fs.root.get? place = some (.directory r entries))
    (hold : ∀ e, fs.root.get? (place ++ [name]) = some e → e.IsFile) :
    fs.Filled (place ++ [name]) (content.upTo fs.room)
      (fs.fill (place ++ [name]) refusals content).files := by
  obtain ⟨r, entries, hget⟩ := hdir
  refine ⟨fun he => hold _ he, ⟨refusals, FileEntry.get?_set_self hget name _⟩, fun hq => ?_, rfl,
    rfl⟩
  rw [FileEntry.get?_concat hget] at hold
  have hnew : (FileEntry.file refusals (content.upTo fs.room)).IsFile := trivial
  exact FileEntry.bareAt_set hget hold hnew hq

theorem failure_fill {refusals : FileRefusals} :
    (fs.fill place refusals content).failure = none ↔ content.upTo fs.room = content := by
  rw [Bytes.upTo_eq_self_iff]
  unfold fill
  dsimp only
  split <;> simp [*]

/-- `fs'` is `fs` after `content` was put in the file that `path` leads to, links followed. -/
structure WrittenAt (fs : FileSystem) (path content : Bytes) (place : List Name)
    (fs' : FileSystem) : Prop where
  resolve_eq : fs'.resolve path = .ok place
  filled : fs.Filled place content fs'

/-- What was written was written to no special file. -/
theorem WrittenAt.find?_ne_special (h : fs.WrittenAt path content place fs') (file : SpecialFile) :
    fs.find? path ≠ some (.special file) := by
  intro hspecial
  obtain ⟨place', hresolve, hget⟩ := find?_eq_some_iff.1 hspecial
  rw [resolve_eq_ok_iff, ← spot_eq_ok_iff] at hresolve
  have hresolve' := h.filled.keeps.resolve_eq h.filled.workDir_eq hresolve nofun
  obtain rfl := Except.ok.inj (hresolve'.symm.trans h.resolve_eq)
  exact h.filled.before hget

/-- What a write of `content` to `path` can do. -/
inductive Writes (fs : FileSystem) (path content : Bytes) : Written → Prop where
  | refused {cause : FileError} : Writes fs path content { files := fs, failure := some cause }
  | filled {place : List Name} {w : Written} :
      fs.WrittenAt path (content.upTo fs.room) place w.files → w.shown = [] →
      (w.failure = none ↔ content.upTo fs.room = content) → Writes fs path content w
  | handed {file : SpecialFile} : fs.find? path = some (.special file) →
      Writes fs path content { files := fs, shown := if file.isOutput then content else [] }

theorem Leads.root_eq {piece : Bytes} (h : Leads fs created links place (piece :: pieces) spot) :
    ∃ refusals entries, fs.root = .directory refusals entries := by
  have hplace : ∃ refusals entries, fs.root.get? place = some (.directory refusals entries) := by
    cases h with
    | slash hget _ => exact ⟨_, _, hget⟩
    | here hpassable _ _ | up hpassable _ _ | name hpassable _ _ _ _ | link hpassable _ _ _
    | free hpassable _ =>
      obtain ⟨refusals, entries, hget, -⟩ := hpassable
      exact ⟨refusals, entries, hget⟩
  obtain ⟨refusals, entries, hget⟩ := hplace
  cases place with
  | nil => exact ⟨refusals, entries, Option.some.inj hget⟩
  | cons n place =>
    obtain ⟨r, es, -, hroot, -⟩ := FileEntry.exists_of_get?_cons hget
    exact ⟨r, es, hroot⟩

/-- A file that a path leads to is in a directory. -/
theorem exists_directory_of_file {refusals : FileRefusals} {bytes : Bytes}
    (hpath : fs.spot created path = .ok (.taken place))
    (hfile : fs.root.get? place = some (.file refusals bytes)) :
    ∃ dir name, place = dir ++ [name] ∧
      ∃ r entries, fs.root.get? dir = some (.directory r entries) := by
  obtain ⟨piece, rest, hpieces⟩ := List.exists_cons_of_ne_nil (Files.pieces_ne_nil path)
  obtain ⟨-, hleads⟩ := spot_eq_ok_iff.1 hpath
  rw [hpieces] at hleads
  obtain ⟨r, entries, hroot⟩ := hleads.root_eq
  rcases List.eq_nil_or_concat place with rfl | ⟨dir, name, rfl⟩
  · rw [hroot] at hfile
    cases hfile
  · rw [List.concat_eq_append] at hfile ⊢
    obtain ⟨r', entries', hdir, -⟩ := FileEntry.exists_directory hfile
    exact ⟨dir, name, rfl, r', entries', hdir⟩

theorem writes_fill (refusals : FileRefusals) {dir : List Name} {name : Name}
    (hpath : fs.spot created path = .ok spot) (hspot : spot.place = dir ++ [name])
    (hdir : ∃ r entries, fs.root.get? dir = some (.directory r entries))
    (hold : ∀ e, fs.root.get? (dir ++ [name]) = some e → e.IsFile) :
    fs.Writes path content (fs.fill (dir ++ [name]) refusals content) := by
  have hfilled := filled_fill refusals content name hdir hold
  exact .filled ⟨hfilled.resolve_eq hspot hpath, hfilled⟩ rfl failure_fill

/-- **A write** is refused, fills a file or hands over to a special file. -/
theorem write_cases (fs : FileSystem) (path content : Bytes) :
    fs.Writes path content (fs.write path content) := by
  unfold write
  split
  · exact .refused
  · next place hpath =>
    split
    · next refusals old hfile =>
      split
      · exact .refused
      · obtain ⟨dir, name, rfl, hdir⟩ := exists_directory_of_file hpath hfile
        refine writes_fill _ hpath rfl hdir fun e he => ?_
        obtain rfl := Option.some.inj (hfile.symm.trans he)
        trivial
    · next file hspecial =>
      split
      · exact .refused
      · have hresolve : fs.resolve path = .ok place := resolve_of_spot hpath
        exact .handed (find?_eq_some_iff.2 ⟨place, hresolve, hspecial⟩)
    · exact .refused
    · exact .refused
    · exact .refused
  · next dir name hpath =>
    split
    · next refusals entries hdir =>
      split
      · exact .refused
      · refine writes_fill _ hpath rfl ⟨refusals, entries, hdir⟩ fun e he => ?_
        have hfree := (spot_eq_ok_iff.1 hpath).2.free_eq
        rw [hfree] at he
        cases he
    · exact .refused

end FileSystem

end Calligraph
