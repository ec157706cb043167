import Calligraph.Proofs.Files.Search

/-!
# The source files below a path

Different names lead from a directory to paths that are ranked differently, so what the search finds
stands in one order only, whatever the order in which directories have their entries
(`FileSystem.sourceFiles_listed`). Where there are no links and the search meets nothing odd, these
are the source files. What is called like a source file is listed too if it is a pipe, and also if
it is a directory with too long a path (`FileSystem.sourceFiles_misnamed`).
-/

namespace Calligraph

open Files (Name)

namespace FileSystem

variable {fs other : FileSystem} {root dir p : Bytes} {name : Name} {names base : List Name}
  {files : List Bytes}

/-! ## The list and the search -/

theorem sourceFiles_eq_nil (h : fs.find? root = none) : fs.sourceFiles root = .ok [] := by
  unfold sourceFiles
  rw [h]
  rfl

theorem sourceFiles_eq_ok_iff {e : FileEntry} (h : fs.find? root = some e) :
    fs.sourceFiles root = .ok files ↔ ∃ found, fs.sourcesBelow root = .ok found ∧
      files = found.mergeSort fun a b => (Files.comparePaths a b).isLE := by
  unfold sourceFiles
  rw [h]
  simp only [Option.isNone_some, Bool.false_eq_true, if_false]
  rw [bind_eq_ok_iff]
  exact exists_congr fun found => and_congr_right fun _ =>
    ⟨fun heq => (Except.ok.inj heq).symm, fun heq => congrArg Except.ok heq.symm⟩

theorem ne_nil_of_find? {e : FileEntry} (h : fs.find? root = some e) : root ≠ [] := by
  obtain ⟨place, hplace, -⟩ := find?_eq_some_iff.1 h
  exact (refusal?_eq_none_iff.1 (resolve_eq_ok_iff.1 hplace).1).2.1

/-- Nothing is found where nothing is. -/
theorem not_finds (h : fs.find? root = none) : ¬ fs.Finds root p := by
  have hlists (name : Name) : ¬ fs.Lists root name := by
    rintro ⟨refusals, entries, hfind, -⟩
    rw [h] at hfind
    cases hfind
  rintro ⟨-, ⟨-, hfile, -⟩ | ⟨dir, name, hsearched, hname, -⟩⟩
  · unfold isFile at hfile
    rw [h] at hfile
    cases hfile
  · rcases (searched_iff.1 hsearched).2 with rfl | ⟨first, hfirst, -⟩
    · exact hlists name hname
    · exact hlists first hfirst

theorem mem_sourceFiles (h : fs.sourceFiles root = .ok files) : p ∈ files ↔ fs.Finds root p := by
  cases hfind : fs.find? root with
  | none =>
    cases (sourceFiles_eq_nil hfind).symm.trans h
    exact iff_of_false List.not_mem_nil (not_finds hfind)
  | some e =>
    obtain ⟨found, hfound, rfl⟩ := (sourceFiles_eq_ok_iff hfind).1 h
    rw [List.mem_mergeSort, mem_sourcesBelow hfound]

theorem exists_sourceFiles_iff :
    (∃ files, fs.sourceFiles root = .ok files) ↔
      fs.find? root = none ∨ ∀ dir, fs.Searched root dir → fs.Listable dir := by
  cases hfind : fs.find? root with
  | none => exact iff_of_true ⟨[], sourceFiles_eq_nil hfind⟩ (.inl rfl)
  | some e =>
    have hsome : ¬ some e = none := by simp
    rw [or_iff_right hsome, ← exists_sourcesBelow_iff]
    constructor
    · rintro ⟨files, hfiles⟩
      obtain ⟨found, hfound, -⟩ := (sourceFiles_eq_ok_iff hfind).1 hfiles
      exact ⟨found, hfound⟩
    · rintro ⟨found, hfound⟩
      exact ⟨_, (sourceFiles_eq_ok_iff hfind).2 ⟨found, hfound, rfl⟩⟩

/-- **The source files stand in the order of their paths**, none twice. -/
theorem rising_sourceFiles (hfs : fs.root.WellNamed) (h : fs.sourceFiles root = .ok files) :
    Files.Rising files := by
  cases hfind : fs.find? root with
  | none =>
    cases (sourceFiles_eq_nil hfind).symm.trans h
    exact List.Pairwise.nil
  | some e =>
    have hroot := ne_nil_of_find? hfind
    obtain ⟨found, hfound, rfl⟩ := (sourceFiles_eq_ok_iff hfind).1 h
    refine Files.rising_mergeSort (nodup_sourcesBelow hfs hroot hfound) fun p hp q hq heq => ?_
    obtain ⟨names, rfl⟩ := ((mem_sourcesBelow hfound).1 hp).exists_names
    obtain ⟨names', rfl⟩ := ((mem_sourcesBelow hfound).1 hq).exists_names
    rw [Files.below_injective hroot heq]

/-! ## Other orders of entries -/

/-- The same stands at the same places. -/
structure SamePlaces (fs other : FileSystem) : Prop where
  workDir_eq : other.workDir = fs.workDir
  bareAt_eq (place : List Name) : other.root.bareAt place = fs.root.bareAt place

namespace SamePlaces

theorem symm (h : fs.SamePlaces other) : other.SamePlaces fs :=
  ⟨h.workDir_eq.symm, fun place => (h.bareAt_eq place).symm⟩

variable (h : fs.SamePlaces other)

include h

theorem get? {place : List Name} {e : FileEntry} (he : fs.root.get? place = some e) :
    ∃ e', other.root.get? place = some e' ∧ e'.bare = e.bare := by
  have hbare := h.bareAt_eq place
  unfold FileEntry.bareAt at hbare
  rw [he, Option.map_some, Option.map_eq_some_iff] at hbare
  exact hbare

theorem keeps : fs.Keeps other := by
  intro place e he
  obtain ⟨e', he', hsame⟩ := h.get? he
  exact ⟨e', he', .inl hsame⟩

theorem resolve {place : List Name} (hplace : fs.resolve p = .ok place) :
    other.resolve p = .ok place := by
  rw [resolve_eq_ok_iff, ← spot_eq_ok_iff] at hplace
  exact h.keeps.resolve_eq h.workDir_eq hplace nofun

theorem find? {e : FileEntry} (he : fs.find? p = some e) :
    ∃ e', other.find? p = some e' ∧ e'.bare = e.bare := by
  obtain ⟨place, hplace, hget⟩ := find?_eq_some_iff.1 he
  obtain ⟨e', hget', hsame⟩ := h.get? hget
  exact ⟨e', find?_eq_some_iff.2 ⟨place, h.resolve hplace, hget'⟩, hsame⟩

theorem directory {refusals : DirectoryRefusals} {entries : List (Name × FileEntry)}
    (he : fs.find? p = some (.directory refusals entries)) :
    ∃ entries', other.find? p = some (.directory refusals entries') ∧
      ∀ name ∈ entries.map Prod.fst, name ∈ entries'.map Prod.fst := by
  obtain ⟨place, hplace, hget⟩ := find?_eq_some_iff.1 he
  obtain ⟨entries', hget'⟩ := h.keeps.directory hget
  refine ⟨entries', find?_eq_some_iff.2 ⟨place, h.resolve hplace, hget'⟩, fun name hname => ?_⟩
  rw [FileEntry.mem_map_fst_iff, ← FileEntry.get?_concat hget] at hname
  obtain ⟨e, he⟩ := hname
  obtain ⟨e', he', -⟩ := h.get? he
  rw [FileEntry.mem_map_fst_iff, ← FileEntry.get?_concat hget']
  exact ⟨e', he'⟩

theorem isDirectory (hp : fs.isDirectory p = true) : other.isDirectory p = true := by
  obtain ⟨refusals, entries, hfind⟩ := isDirectory_iff.1 hp
  obtain ⟨entries', hfind', -⟩ := h.directory hfind
  exact isDirectory_iff.2 ⟨refusals, entries', hfind'⟩

theorem isFile (hp : fs.isFile p = true) : other.isFile p = true := by
  obtain ⟨refusals, content, hfind⟩ := isFile_iff.1 hp
  obtain ⟨e', hfind', hsame⟩ := h.find? hfind
  cases e' with
  | file r c =>
    cases hsame
    exact isFile_iff.2 ⟨refusals, content, hfind'⟩
  | directory r es => cases hsame
  | link target => cases hsame
  | special file => cases hsame

theorem isDirectory_eq (p : Bytes) : other.isDirectory p = fs.isDirectory p :=
  Bool.eq_iff_iff.2 ⟨h.symm.isDirectory, h.isDirectory⟩

theorem isFile_eq (p : Bytes) : other.isFile p = fs.isFile p :=
  Bool.eq_iff_iff.2 ⟨h.symm.isFile, h.isFile⟩

theorem lists (hname : fs.Lists dir name) : other.Lists dir name := by
  obtain ⟨refusals, entries, hfind, hlisting, hmem⟩ := hname
  obtain ⟨entries', hfind', hnames⟩ := h.directory hfind
  exact ⟨refusals, entries', hfind', hlisting, hnames name hmem⟩

theorem listable (hdir : fs.Listable dir) : other.Listable dir := by
  obtain ⟨refusals, entries, hfind, hlisting, hgoingOn⟩ := hdir
  obtain ⟨entries', hfind', -⟩ := h.directory hfind
  exact ⟨refusals, entries', hfind', hlisting, hgoingOn⟩

theorem searched (hdir : fs.Searched root dir) : other.Searched root dir := by
  induction hdir with
  | start hkept hfile => exact .start hkept (by rw [h.isFile_eq, hfile])
  | entry _ hlists hdirectory hkept ih =>
    exact .entry ih (h.lists hlists) (h.isDirectory hdirectory) hkept

theorem finds (hp : fs.Finds root p) : other.Finds root p := by
  obtain ⟨hsource, ⟨hkept, hfile, hroot⟩ | ⟨dir, name, hdir, hname, hjoin, hdirectory⟩⟩ := hp
  · exact ⟨hsource, .inl ⟨hkept, h.isFile hfile, hroot⟩⟩
  · refine ⟨hsource, .inr ⟨dir, name, h.searched hdir, h.lists hname, hjoin, ?_⟩⟩
    rw [h.isDirectory_eq, hdirectory]

theorem exists_sourceFiles (hfiles : ∃ files, fs.sourceFiles root = .ok files) :
    ∃ files, other.sourceFiles root = .ok files := by
  rw [exists_sourceFiles_iff] at hfiles ⊢
  rcases hfiles with hnone | hlistable
  · left
    cases hfind : other.find? root with
    | none => rfl
    | some e =>
      obtain ⟨e', he', -⟩ := h.symm.find? hfind
      rw [hnone] at he'
      cases he'
  · exact .inr fun dir hdir => h.listable (hlistable dir (h.symm.searched hdir))

theorem sourceFiles_eq (hfs : fs.root.WellNamed) (hother : other.root.WellNamed)
    (hfiles : fs.sourceFiles root = .ok files) : other.sourceFiles root = .ok files := by
  obtain ⟨files', hfiles'⟩ := h.exists_sourceFiles ⟨files, hfiles⟩
  have hsame : files' = files := by
    refine (rising_sourceFiles hother hfiles').eq_of_mem_iff (rising_sourceFiles hfs hfiles)
      fun p => ?_
    rw [mem_sourceFiles hfiles', mem_sourceFiles hfiles]
    exact ⟨h.symm.finds, h.finds⟩
  rw [hfiles', hsame]

end SamePlaces

/-! ## Searches that meet nothing odd -/

/-- None of `root` and the directories that `names` lead through from it is left out. -/
def KeptTo (root : Bytes) (names : List Name) : Prop :=
  ∀ front, front <+: names → Files.IsKept (Files.below root front)

theorem keptTo_concat :
    KeptTo root (names ++ [name]) ↔
      KeptTo root names ∧ Files.IsKept (Files.below root (names ++ [name])) := by
  constructor
  · intro h
    exact ⟨fun front hfront => h front (hfront.trans (List.prefix_append _ _)),
      h _ List.prefix_rfl⟩
  · rintro ⟨hnames, hlast⟩ front hfront
    rcases List.prefix_concat_iff.1 hfront with rfl | hfront
    · exact hlast
    · exact hnames front hfront

theorem KeptTo.isKept (h : KeptTo root names) : Files.IsKept root :=
  h [] List.nil_prefix

/-- The path is that of a source file at or below `root`, and neither `root` nor a directory on the
way to the file is one that is left out. -/
def HasSourceAt (fs : FileSystem) (root p : Bytes) : Prop :=
  ∃ base names refusals content, fs.resolve root = .ok base ∧
    fs.root.get? (base ++ names) = some (.file refusals content) ∧
    p = Files.below root names ∧ Files.IsSource p ∧ KeptTo root names.dropLast

/-- The search from `root` meets nothing odd: the directories that are not left out can be listed to
the end and passed, none has too long a path, and neither `root` nor what is called like a source
file is a special file. -/
structure Orderly (fs : FileSystem) (root : Bytes) : Prop where
  directory {base names : List Name} {refusals : DirectoryRefusals}
    {entries : List (Name × FileEntry)} :
    fs.resolve root = .ok base → KeptTo root names →
    fs.root.get? (base ++ names) = some (.directory refusals entries) →
    refusals.listing = none ∧ refusals.goingOn = none ∧ refusals.passing = none ∧
      Files.isTooLong (Files.below root names) = false
  noSpecial {base names : List Name} {file : SpecialFile} :
    fs.resolve root = .ok base → KeptTo root names.dropLast →
    names = [] ∨ Files.IsSource (Files.below root names) →
    fs.root.get? (base ++ names) ≠ some (.special file)

theorem isKept_of_isSource (h : Files.IsSource p) : Files.IsKept p := by
  obtain ⟨stem, -, hname⟩ := h
  have hlast (other : Bytes) (hother : other.getLast? ≠ some 0x73) :
      Files.fileName? p ≠ some other := by
    rintro heq
    rw [hname] at heq
    obtain rfl := Option.some.inj heq
    apply hother
    rw [List.getLast?_append]
    rfl
  exact ⟨hlast _ (by decide), hlast _ (by decide)⟩

section NoLinks

variable (hlinks : fs.root.NoLinks) (h : fs.Orderly root) (hbase : fs.resolve root = .ok base)

include h hbase

theorem lists_of_get? (hdir : fs.resolve (Files.below root names) = .ok (base ++ names))
    (hnames : KeptTo root names) {e : FileEntry}
    (hget : fs.root.get? (base ++ (names ++ [name])) = some e) :
    fs.Lists (Files.below root names) name := by
  rw [← List.append_assoc] at hget
  obtain ⟨r, es, habove, hlookup⟩ := FileEntry.exists_directory hget
  exact ⟨r, es, find?_eq_some_iff.2 ⟨_, hdir, habove⟩, (h.directory hbase hnames habove).1,
    FileEntry.mem_map_fst_iff.2 ⟨_, hlookup⟩⟩

include hlinks

theorem resolve_below_concat (hdir : fs.resolve (Files.below root names) = .ok (base ++ names))
    (hnames : KeptTo root (names ++ [name])) {refusals : DirectoryRefusals}
    {entries : List (Name × FileEntry)}
    (hget : fs.root.get? (base ++ (names ++ [name])) = some (.directory refusals entries)) :
    fs.resolve (Files.below root (names ++ [name])) = .ok (base ++ (names ++ [name])) := by
  have hroot : root ≠ [] := (refusal?_eq_none_iff.1 (resolve_eq_ok_iff.1 hbase).1).2.1
  obtain ⟨-, -, -, hshort⟩ := h.directory hbase hnames hget
  rw [← List.append_assoc] at hget
  obtain ⟨r, es, habove, -⟩ := FileEntry.exists_directory hget
  obtain ⟨-, -, hpassing, -⟩ := h.directory hbase (keptTo_concat.1 hnames).1 habove
  rw [Files.below_concat] at hshort ⊢
  rw [← List.append_assoc]
  exact (resolve_join_iff hlinks (Files.below_ne_nil hroot names)).2
    ⟨hshort, _, _, hdir, ⟨r, es, habove, hpassing⟩, rfl, hget⟩

/-- The directories that are looked into, by their places. -/
theorem searched_of_get? {refusals : DirectoryRefusals} {entries : List (Name × FileEntry)}
    (hnames : KeptTo root names)
    (hget : fs.root.get? (base ++ names) = some (.directory refusals entries)) :
    fs.Searched root (Files.below root names) ∧
      fs.resolve (Files.below root names) = .ok (base ++ names) := by
  induction names using List.reverseRecOn generalizing refusals entries with
  | nil =>
    rw [List.append_nil] at hget ⊢
    have hdirectory : fs.isDirectory root = true :=
      isDirectory_iff.2 ⟨refusals, entries, find?_eq_some_iff.2 ⟨base, hbase, hget⟩⟩
    exact ⟨.start hnames.isKept (isFile_eq_false_of_isDirectory hdirectory), hbase⟩
  | append_singleton names name ih =>
    obtain ⟨hkept, hlast⟩ := keptTo_concat.1 hnames
    have habove : ∃ r es, fs.root.get? (base ++ names) = some (.directory r es) := by
      rw [← List.append_assoc] at hget
      obtain ⟨r, es, habove, -⟩ := FileEntry.exists_directory hget
      exact ⟨r, es, habove⟩
    obtain ⟨r, es, habove⟩ := habove
    obtain ⟨hsearched, hresolve⟩ := ih hkept habove
    have hresolve' := resolve_below_concat hlinks h hbase hresolve hnames hget
    have hlists := lists_of_get? h hbase hresolve hkept hget
    refine ⟨?_, hresolve'⟩
    rw [Files.below_concat] at hresolve' hlast ⊢
    exact .entry hsearched hlists
      (isDirectory_iff.2 ⟨refusals, entries, find?_eq_some_iff.2 ⟨_, hresolve', hget⟩⟩) hlast

theorem get?_of_searched {e : FileEntry} (hroot : fs.root.get? base = some e)
    (hdir : fs.Searched root dir) :
    ∃ names refusals entries, dir = Files.below root names ∧ KeptTo root names ∧
      fs.resolve dir = .ok (base ++ names) ∧
      fs.root.get? (base ++ names) = some (.directory refusals entries) := by
  induction hdir with
  | start hkept hfile =>
    have hkeptTo : KeptTo root [] := by
      intro front hfront
      rw [List.prefix_nil.1 hfront]
      exact hkept
    have hfind : fs.find? root = some e := find?_eq_some_iff.2 ⟨base, hbase, hroot⟩
    rw [← List.append_nil base] at hbase hroot
    cases e with
    | directory refusals entries => exact ⟨[], refusals, entries, rfl, hkeptTo, hbase, hroot⟩
    | file refusals content =>
      rw [isFile_iff.2 ⟨refusals, content, hfind⟩] at hfile
      cases hfile
    | link target => exact absurd hroot (hlinks _ _)
    | special file =>
      rw [List.append_nil] at hbase
      exact absurd hroot (h.noSpecial hbase hkeptTo (.inl rfl))
  | @entry dir name _ hlists hdirectory hkept ih =>
    obtain ⟨names, refusals, entries, rfl, hkeptTo, hresolve, hget⟩ := ih
    have hne : Files.below root names ≠ [] :=
      (refusal?_eq_none_iff.1 (resolve_eq_ok_iff.1 hresolve).1).2.1
    obtain ⟨r, es, hfind⟩ := isDirectory_iff.1 hdirectory
    obtain ⟨goal, hgoal, hget'⟩ := find?_eq_some_iff.1 hfind
    obtain ⟨-, above, -, habove, -, rfl, -⟩ := (resolve_join_iff hlinks hne).1 hgoal
    obtain rfl := Except.ok.inj (hresolve.symm.trans habove)
    rw [List.append_assoc] at hgoal hget'
    rw [← Files.below_concat] at hkept hgoal ⊢
    exact ⟨names ++ [name], r, es, rfl, keptTo_concat.2 ⟨hkeptTo, hkept⟩, hgoal, hget'⟩

theorem listable_of_searched {e : FileEntry} (hroot : fs.root.get? base = some e)
    (hdir : fs.Searched root dir) : fs.Listable dir := by
  obtain ⟨names, refusals, entries, -, hkeptTo, hresolve, hget⟩ :=
    get?_of_searched hlinks h hbase hroot hdir
  obtain ⟨hlisting, hgoingOn, -⟩ := h.directory hbase hkeptTo hget
  exact ⟨refusals, entries, find?_eq_some_iff.2 ⟨_, hresolve, hget⟩, hlisting, hgoingOn⟩

/-- What is called like a source file in a directory that is looked into, and is no directory, is a
file. -/
theorem exists_file_of_lists (hkeptTo : KeptTo root names)
    (hresolve : fs.resolve (Files.below root names) = .ok (base ++ names))
    (hlists : fs.Lists (Files.below root names) name)
    (hdirectory : fs.isDirectory (Files.below root (names ++ [name])) = false)
    (hsource : Files.IsSource (Files.below root (names ++ [name]))) :
    ∃ refusals content,
      fs.root.get? (base ++ (names ++ [name])) = some (.file refusals content) := by
  obtain ⟨r, es, hfind, -, hmem⟩ := hlists
  obtain ⟨place, hplace, hget⟩ := find?_eq_some_iff.1 hfind
  obtain rfl := Except.ok.inj (hresolve.symm.trans hplace)
  rw [FileEntry.mem_map_fst_iff, ← FileEntry.get?_concat hget, List.append_assoc] at hmem
  obtain ⟨e, he⟩ := hmem
  cases e with
  | file refusals content => exact ⟨refusals, content, he⟩
  | directory refusals entries =>
    have hresolve' := resolve_below_concat hlinks h hbase hresolve
      (keptTo_concat.2 ⟨hkeptTo, isKept_of_isSource hsource⟩) he
    rw [isDirectory_iff.2 ⟨refusals, entries, find?_eq_some_iff.2 ⟨_, hresolve', he⟩⟩] at hdirectory
    cases hdirectory
  | link target => exact absurd he (hlinks _ _)
  | special file =>
    have hdropLast : KeptTo root (names ++ [name]).dropLast := by
      rw [List.dropLast_concat]
      exact hkeptTo
    exact absurd he (h.noSpecial hbase hdropLast (.inr hsource))

/-- **What is found are the source files**, by their places. -/
theorem finds_iff_hasSourceAt {e : FileEntry} (hroot : fs.root.get? base = some e) :
    fs.Finds root p ↔ fs.HasSourceAt root p := by
  have hne : root ≠ [] := (refusal?_eq_none_iff.1 (resolve_eq_ok_iff.1 hbase).1).2.1
  constructor
  · rintro ⟨hsource, ⟨hkept, hfile, rfl⟩ | ⟨dir, name, hdir, hlists, rfl, hdirectory⟩⟩
    · obtain ⟨refusals, content, hfind⟩ := isFile_iff.1 hfile
      obtain ⟨place, hplace, hget⟩ := find?_eq_some_iff.1 hfind
      rw [← List.append_nil place] at hget
      refine ⟨place, [], refusals, content, hplace, hget, rfl, hsource, fun front hfront => ?_⟩
      rw [List.prefix_nil.1 hfront]
      exact hkept
    · obtain ⟨names, -, -, rfl, hkeptTo, hresolve, -⟩ := get?_of_searched hlinks h hbase hroot hdir
      rw [← Files.below_concat] at hdirectory hsource ⊢
      obtain ⟨refusals, content, hget⟩ :=
        exists_file_of_lists hlinks h hbase hkeptTo hresolve hlists hdirectory hsource
      refine ⟨base, names ++ [name], refusals, content, hbase, hget, rfl, hsource, ?_⟩
      rw [List.dropLast_concat]
      exact hkeptTo
  · rintro ⟨place, names, refusals, content, hplace, hget, rfl, hsource, hkeptTo⟩
    obtain rfl := Except.ok.inj (hbase.symm.trans hplace)
    refine ⟨hsource, ?_⟩
    rcases List.eq_nil_or_concat names with rfl | ⟨dirs, name, rfl⟩
    · rw [List.append_nil] at hget
      exact .inl ⟨hkeptTo.isKept,
        isFile_iff.2 ⟨refusals, content, find?_eq_some_iff.2 ⟨base, hbase, hget⟩⟩, rfl⟩
    · rw [List.concat_eq_append] at hget hkeptTo ⊢
      rw [List.dropLast_concat] at hkeptTo
      have hlast := hget
      rw [← List.append_assoc] at hlast
      obtain ⟨r, es, habove, -⟩ := FileEntry.exists_directory hlast
      obtain ⟨hsearched, hresolve⟩ := searched_of_get? hlinks h hbase hkeptTo habove
      refine .inr ⟨_, name, hsearched, lists_of_get? h hbase hresolve hkeptTo hget,
        Files.below_concat _ _ _, ?_⟩
      rw [Files.below_concat, Bool.eq_false_iff]
      intro hdirectory
      obtain ⟨r', es', hfind⟩ := isDirectory_iff.1 hdirectory
      obtain ⟨goal, hgoal, hget'⟩ := find?_eq_some_iff.1 hfind
      obtain ⟨-, above, -, hsame, -, rfl, -⟩ :=
        (resolve_join_iff hlinks (Files.below_ne_nil hne dirs)).1 hgoal
      obtain rfl := Except.ok.inj (hresolve.symm.trans hsame)
      cases hlast.symm.trans hget'

end NoLinks

/-- A source file is below a path only if something is at the path. -/
theorem HasSourceAt.exists_find? (h : fs.HasSourceAt root p) : ∃ e, fs.find? root = some e := by
  obtain ⟨base, names, refusals, content, hbase, hget, -⟩ := h
  rw [FileEntry.get?_append] at hget
  obtain ⟨e, he, -⟩ := Option.bind_eq_some_iff.1 hget
  exact ⟨e, find?_eq_some_iff.2 ⟨base, hbase, he⟩⟩

theorem exists_sourceFiles_of_orderly (hlinks : fs.root.NoLinks) (h : fs.Orderly root) :
    ∃ files, fs.sourceFiles root = .ok files ∧ ∀ p, p ∈ files ↔ fs.HasSourceAt root p := by
  cases hfind : fs.find? root with
  | none =>
    refine ⟨[], sourceFiles_eq_nil hfind, fun p => iff_of_false List.not_mem_nil fun hp => ?_⟩
    obtain ⟨e, he⟩ := hp.exists_find?
    rw [hfind] at he
    cases he
  | some e =>
    obtain ⟨base, hbase, hroot⟩ := find?_eq_some_iff.1 hfind
    obtain ⟨files, hfiles⟩ := exists_sourceFiles_iff.2
      (.inr fun dir hdir => listable_of_searched hlinks h hbase hroot hdir)
    refine ⟨files, hfiles, fun p => ?_⟩
    rw [mem_sourceFiles hfiles, finds_iff_hasSourceAt hlinks h hbase hroot]

/-! ## The list of source files -/

/-- **The source files below a path.** There are none if nothing is at the path. The search fails
only where it looks into what cannot be listed to the end. What it gives rises in the order of
paths, and is whatever has the name of a source file and is no directory in the directories that are
looked into. Without links, and if nothing odd is met, the search succeeds and gives exactly the
source files. The order in which directories have their entries does not matter. -/
theorem sourceFiles_listed (fs : FileSystem) (hfs : fs.root.WellNamed) (root : Bytes) :
    (fs.find? root = none → fs.sourceFiles root = .ok []) ∧
    ((∃ files, fs.sourceFiles root = .ok files) ↔
      fs.find? root = none ∨ ∀ dir, fs.Searched root dir → fs.Listable dir) ∧
    (∀ files, fs.sourceFiles root = .ok files →
      Files.Rising files ∧ ∀ p, p ∈ files ↔ fs.Finds root p) ∧
    (fs.root.NoLinks → fs.Orderly root → ∃ files, fs.sourceFiles root = .ok files ∧
      Files.Rising files ∧ ∀ p, p ∈ files ↔ fs.HasSourceAt root p) ∧
    ∀ other : FileSystem, other.root.WellNamed → fs.SamePlaces other → ∀ files,
      other.sourceFiles root = .ok files ↔ fs.sourceFiles root = .ok files := by
  refine ⟨sourceFiles_eq_nil, exists_sourceFiles_iff, fun files hfiles => ?_,
    fun hlinks horderly => ?_, fun other hother hsame files => ?_⟩
  · exact ⟨rising_sourceFiles hfs hfiles, fun p => mem_sourceFiles hfiles⟩
  · obtain ⟨files, hfiles, hmem⟩ := exists_sourceFiles_of_orderly hlinks horderly
    exact ⟨files, hfiles, rising_sourceFiles hfs hfiles, hmem⟩
  · exact ⟨hsame.symm.sourceFiles_eq hother hfs, hsame.sourceFiles_eq hfs hother⟩

/-- A source file in a directory that is called like one, and one in a directory that is left out
and cannot be listed. -/
def mixed : FileSystem :=
  { root := .directory {} [
      (.ofText "x.rs" rfl, .directory {} [(.ofText "inner.rs" rfl, .file {} [])]),
      (.ofText "target" rfl, .directory { listing := some .permissionDenied }
        [(.ofText "built.rs" rfl, .file {} [])])] }

theorem get?_mixed : ∀ place e, mixed.root.get? place = some e →
    e.IsFile ∨ ∃ refusals entries, e = .directory refusals entries ∧
      (entries.map Prod.fst).Nodup ∧ (place = [.ofText "target" rfl] ∨
        refusals = {} ∧ Files.isTooLong (Files.below "." place) = false) := by
  refine FileEntry.forall_get?_directory (.inr ?_)
    (List.forall_mem_cons.2 ⟨?_, List.forall_mem_singleton.2 ?_⟩)
  · exact ⟨_, _, rfl, by decide, .inr ⟨rfl, by decide⟩⟩
  · refine FileEntry.forall_get?_directory (.inr ?_) (List.forall_mem_singleton.2 ?_)
    · exact ⟨_, _, rfl, by decide, .inr ⟨rfl, by decide⟩⟩
    · exact FileEntry.forall_get?_leaf (by simp) (.inl trivial)
  · refine FileEntry.forall_get?_directory (.inr ?_) (List.forall_mem_singleton.2 ?_)
    · exact ⟨_, _, rfl, by decide, .inl rfl⟩
    · exact FileEntry.forall_get?_leaf (by simp) (.inl trivial)

theorem wellNamed_mixed : mixed.root.WellNamed := by
  intro place refusals entries h
  obtain hfile | ⟨r, es, heq, hnodup, -⟩ := get?_mixed _ _ h
  · cases hfile
  · cases heq
    exact hnodup

theorem noLinks_mixed : mixed.root.NoLinks := by
  intro place target h
  obtain hfile | ⟨r, es, heq, -⟩ := get?_mixed _ _ h
  · cases hfile
  · cases heq

theorem orderly_mixed : mixed.Orderly "." := by
  have hroot : mixed.resolve "." = .ok [] := by decide +kernel
  refine ⟨fun hbase hkeptTo hget => ?_, fun _ _ _ hspecial => ?_⟩
  · obtain rfl := Except.ok.inj (hroot.symm.trans hbase)
    obtain hfile | ⟨r, es, heq, -, rfl | ⟨rfl, hshort⟩⟩ := get?_mixed _ _ hget
    · cases hfile
    · exact absurd (hkeptTo _ List.prefix_rfl) (by decide)
    · cases heq
      exact ⟨rfl, rfl, rfl, hshort⟩
  · obtain hfile | ⟨r, es, heq, -⟩ := get?_mixed _ _ hspecial
    · cases hfile
    · cases heq

theorem sourceFiles_listed_mixed :
    mixed.sourceFiles "." = .ok [Bytes.ofText "./x.rs/inner.rs"] ∧
      ∀ p, p ∈ [Bytes.ofText "./x.rs/inner.rs"] ↔ mixed.HasSourceAt "." p := by
  obtain ⟨-, -, -, hlisted, -⟩ := sourceFiles_listed mixed wellNamed_mixed "."
  obtain ⟨files, hfiles, -, hmem⟩ := hlisted noLinks_mixed orderly_mixed
  have hone : mixed.sourceFiles "." = .ok [Bytes.ofText "./x.rs/inner.rs"] := by decide +kernel
  cases hone.symm.trans hfiles
  exact ⟨hone, hmem⟩

/-! ## Odd entries that are called like source files -/

/-- The working directory, with `n` slashes behind it. -/
def slashed (n : Nat) : Bytes :=
  Bytes.dot :: List.replicate n Bytes.slash

theorem slashed_succ (n : Nat) : slashed (n + 1) = slashed n ++ [Bytes.slash] := by
  simp [slashed, List.replicate_succ']

theorem length_slashed (n : Nat) : (slashed n).length = n + 1 := by
  simp [slashed]

theorem pieces_slashed (n : Nat) :
    Files.pieces (slashed n) = Files.here :: List.replicate n [] := by
  induction n with
  | zero => rfl
  | succ n ih =>
    rw [slashed_succ, Files.pieces_append_slash, ih, List.replicate_succ']
    rfl

theorem fileName?_slashed (n : Nat) : Files.fileName? (slashed n) = none := by
  have hnone : (List.replicate n []).filterMap Files.component? = [] := by
    simp [List.filterMap_replicate_of_none, Files.component?]
  have hcomponents : Files.components (slashed n) = [.current] := by
    unfold Files.components
    rw [pieces_slashed, List.filterMap_cons_none rfl, hnone]
    rfl
  unfold Files.fileName?
  rw [hcomponents]
  rfl

theorem resolve_slashed {n : Nat} (hn : n < Files.maxPathBytes) (hdir : fs.Passable fs.workDir) :
    fs.resolve (slashed n) = .ok fs.workDir := by
  have hshort : Files.isTooLong (slashed n) = false := by
    unfold Files.isTooLong
    rw [length_slashed]
    exact decide_eq_false (Nat.not_lt.2 hn)
  have hnul : 0 ∉ slashed n := by
    simp [slashed, Bytes.dot, Bytes.slash]
  have hslashes : Leads fs false maxLinks fs.workDir (List.replicate n []) (.taken fs.workDir) := by
    obtain ⟨refusals, entries, hget, -⟩ := hdir
    clear hn hshort hnul
    induction n with
    | zero => exact .done
    | succ n ih => exact .slash hget ih
  rw [resolve_eq_ok_iff, refusal?_eq_none_iff, pieces_slashed]
  exact ⟨⟨hnul, List.cons_ne_nil _ _, hshort⟩, .here hdir rfl hslashes⟩

/-- One entry, which is called like a source file. -/
def lone (e : FileEntry) : FileSystem :=
  { root := .directory {} [(.ofText "x.rs" rfl, e)] }

theorem get?_lone (e : FileEntry) (he : ∀ place found, e.get? place = some found → place = []) :
    ∀ place found, (lone e).root.get? place = some found →
      (∃ entries, found = .directory {} entries ∧ (entries.map Prod.fst).Nodup) ∨ found = e := by
  refine FileEntry.forall_get?_directory (.inl ⟨_, rfl, List.nodup_singleton _⟩)
    (List.forall_mem_singleton.2 fun place found hfound => .inr ?_)
  obtain rfl := he place found hfound
  exact (Option.some.inj hfound).symm

theorem lists_slashed {e : FileEntry} {n : Nat} (hn : n < Files.maxPathBytes) :
    (lone e).Lists (slashed n) name ↔ name = .ofText "x.rs" rfl := by
  have hfind : (lone e).find? (slashed n) = some (lone e).root :=
    find?_eq_some_iff.2 ⟨[], resolve_slashed hn ⟨_, _, rfl, rfl⟩, rfl⟩
  constructor
  · rintro ⟨refusals, entries, hfind', -, hmem⟩
    cases hfind.symm.trans hfind'
    exact List.mem_singleton.1 hmem
  · rintro rfl
    exact ⟨_, _, hfind, rfl, List.mem_singleton.2 rfl⟩

theorem length_join_slashed (n : Nat) :
    (Files.join (slashed (n + 1)) (Bytes.ofText "x.rs")).length = n + 6 := by
  have hlast : (slashed (n + 1)).getLast? = some Bytes.slash := by
    rw [slashed_succ, List.getLast?_concat]
  have hname : (Bytes.ofText "x.rs").length = 4 := by decide
  unfold Files.join
  rw [if_neg (by decide), if_pos (.inr hlast), List.length_append, length_slashed, hname]

/-- With so many slashes that its path is too long, the entry is listed whatever it is. -/
theorem sourceFiles_slashed {e : FileEntry} (hwell : (lone e).root.WellNamed) {n : Nat}
    (hn : n + 1 < Files.maxPathBytes) (hlong : Files.maxPathBytes < n + 6) :
    (lone e).sourceFiles (slashed (n + 1)) =
      .ok [Files.join (slashed (n + 1)) (Bytes.ofText "x.rs")] := by
  have hfind : (lone e).find? (slashed (n + 1)) = some (lone e).root :=
    find?_eq_some_iff.2 ⟨[], resolve_slashed hn ⟨_, _, rfl, rfl⟩, rfl⟩
  have hkept : Files.IsKept (slashed (n + 1)) := by
    simp [Files.IsKept, fileName?_slashed]
  have hfile : (lone e).isFile (slashed (n + 1)) = false := by
    unfold isFile
    rw [hfind]
    rfl
  have hdirectory :
      (lone e).isDirectory (Files.join (slashed (n + 1)) (Bytes.ofText "x.rs")) = false := by
    rw [Bool.eq_false_iff]
    intro htrue
    have hle := length_of_isDirectory htrue
    rw [length_join_slashed] at hle
    omega
  have hsource : Files.IsSource (Files.join (slashed (n + 1)) (Bytes.ofText "x.rs")) :=
    ⟨Bytes.ofText "x", by decide, Files.fileName?_join (ne_nil_of_find? hfind) (by decide)⟩
  have hlistable : ∀ dir, (lone e).Searched (slashed (n + 1)) dir → (lone e).Listable dir := by
    intro dir hdir
    rcases (searched_iff.1 hdir).2 with rfl | ⟨name, hname, htrue, -⟩
    · exact ⟨_, _, hfind, rfl, rfl⟩
    · obtain rfl := (lists_slashed hn).1 hname
      cases hdirectory.symm.trans htrue
  obtain ⟨files, hfiles⟩ := exists_sourceFiles_iff.2 (.inr hlistable)
  have hmem (p : Bytes) :
      p ∈ files ↔ p ∈ [Files.join (slashed (n + 1)) (Bytes.ofText "x.rs")] := by
    rw [mem_sourceFiles hfiles, finds_iff hkept hfile, List.mem_singleton]
    constructor
    · rintro ⟨name, hname, ⟨htrue, -⟩ | ⟨-, rfl, -⟩⟩
      · obtain rfl := (lists_slashed hn).1 hname
        cases hdirectory.symm.trans htrue
      · obtain rfl := (lists_slashed hn).1 hname
        rfl
    · rintro rfl
      exact ⟨_, (lists_slashed hn).2 rfl, .inr ⟨hdirectory, rfl, hsource⟩⟩
  rw [hfiles, (rising_sourceFiles hwell hfiles).eq_of_mem_iff (List.pairwise_singleton _ _) hmem]

theorem not_hasSourceAt (h : ∀ place e, fs.root.get? place = some e → ¬ e.IsFile) :
    ¬ fs.HasSourceAt root p := by
  rintro ⟨base, names, refusals, content, -, hget, -⟩
  exact h _ _ hget trivial

/-- A directory and a pipe are listed where there is no file at all. -/
theorem sourceFiles_misnamed :
    (∀ p, ¬ (lone (.directory {} [])).HasSourceAt (slashed 4091) p) ∧
      (lone (.directory {} [])).sourceFiles (slashed 4091) =
        .ok [Files.join (slashed 4091) (Bytes.ofText "x.rs")] ∧
    (∀ p, ¬ (lone (.special {})).HasSourceAt "." p) ∧
      (lone (.special {})).sourceFiles "." = .ok [Bytes.ofText "./x.rs"] := by
  have hdirectory := get?_lone (.directory {} [])
    (FileEntry.forall_get?_directory rfl (List.forall_mem_nil _))
  have hspecial := get?_lone (.special {}) (FileEntry.forall_get?_leaf (by simp) rfl)
  have hwell : (lone (.directory {} [])).root.WellNamed := by
    intro place refusals entries h
    rcases hdirectory place _ h with ⟨es, heq, hnodup⟩ | heq
    · cases heq
      exact hnodup
    · cases heq
      exact List.nodup_nil
  refine ⟨fun p => not_hasSourceAt fun place e he hfile => ?_,
    sourceFiles_slashed hwell (by decide) (by decide),
    fun p => not_hasSourceAt fun place e he hfile => ?_, by decide +kernel⟩
  · rcases hdirectory place e he with ⟨es, rfl, -⟩ | rfl
    · cases hfile
    · cases hfile
  · rcases hspecial place e he with ⟨es, rfl, -⟩ | rfl
    · cases hfile
    · cases hfile

end FileSystem

end Calligraph
