import Mathlib.Data.List.TakeDrop
import Calligraph.Collect
import Calligraph.Proofs.Files.Walk

/-!
# The search for source files

`FileSystem.Searched` says which directories the search looks into. The search succeeds if all of
them can be listed in full (`FileSystem.exists_sourcesBelow_iff`), and then finds by its name
whatever is no directory in them (`FileSystem.mem_sourcesBelow`), nothing twice
(`FileSystem.nodup_sourcesBelow`).
-/

namespace Calligraph

open Files (Name)

/-! ## Names of source files -/

namespace Files

/-- The path ends in the name of a source file. -/
def IsSource (path : Bytes) : Prop :=
  ∃ stem, stem ≠ [] ∧ fileName? path = some (stem ++ (".rs" : Bytes))

/-- The path does not end in the name of a directory that is left out. -/
def IsKept (path : Bytes) : Prop :=
  fileName? path ≠ some ("target" : Bytes) ∧ fileName? path ≠ some (".git" : Bytes)

instance : DecidablePred IsKept :=
  fun path => inferInstanceAs (Decidable (fileName? path ≠ some ("target" : Bytes) ∧
    fileName? path ≠ some (".git" : Bytes)))

theorem isSkipped_eq_false_iff {path : Bytes} : isSkipped path = false ↔ IsKept path := by
  unfold isSkipped IsKept
  cases fileName? path with
  | none => simp
  | some name => simp

/-- A name divided at a dot that is not its first byte. -/
theorem divideName_append {front ending : Bytes} (hfront : front ≠ []) (h : Bytes.dot ∉ ending) :
    divideName (front ++ Bytes.dot :: ending) = (front, some ending) := by
  obtain ⟨init, last, rfl⟩ := (List.eq_nil_or_concat front).resolve_left hfront
  have hall : ∀ b ∈ ending.reverse, decide (b ≠ Bytes.dot) = true := by
    intro b hb
    have hne : b ≠ Bytes.dot := by
      rintro rfl
      exact h (List.mem_reverse.1 hb)
    simpa using hne
  unfold divideName
  rw [List.span_eq_takeWhile_dropWhile]
  simp only [List.concat_eq_append, List.reverse_append, List.reverse_cons, List.append_assoc]
  rw [List.takeWhile_append_of_pos hall, List.dropWhile_append_of_pos hall]
  simp

theorem exists_of_divideName {name ending : Bytes} (h : (divideName name).2 = some ending) :
    ∃ front, front ≠ [] ∧ name = front ++ Bytes.dot :: ending := by
  have hwhole : name.reverse.takeWhile (· ≠ Bytes.dot) ++ name.reverse.dropWhile (· ≠ Bytes.dot) =
      name.reverse := List.takeWhile_append_dropWhile
  unfold divideName at h
  rw [List.span_eq_takeWhile_dropWhile] at h
  cases hdropped : name.reverse.dropWhile (· ≠ Bytes.dot) with
  | nil =>
    rw [hdropped] at h
    cases h
  | cons b stem =>
    have hdot : b = Bytes.dot := by
      have hhead := List.head?_dropWhile_not (· ≠ Bytes.dot) name.reverse
      rw [hdropped] at hhead
      simpa using hhead
    cases stem with
    | nil =>
      rw [hdropped] at h
      cases h
    | cons d stem =>
      rw [hdropped] at h hwhole
      generalize name.reverse.takeWhile (· ≠ Bytes.dot) = taken at h hwhole
      obtain rfl := Option.some.inj h
      refine ⟨(d :: stem).reverse, by simp, ?_⟩
      rw [← List.reverse_reverse name, ← hwhole, hdot]
      simp

theorem divideName_eq_rs_iff {name : Bytes} :
    (divideName name).2 = some ("rs" : Bytes) ↔
      ∃ stem, stem ≠ [] ∧ name = stem ++ (".rs" : Bytes) := by
  constructor
  · intro h
    obtain ⟨front, hfront, rfl⟩ := exists_of_divideName h
    exact ⟨front, hfront, rfl⟩
  · rintro ⟨stem, hstem, rfl⟩
    have hdivided : divideName (stem ++ (".rs" : Bytes)) = (stem, some ("rs" : Bytes)) :=
      divideName_append hstem (by decide)
    rw [hdivided]

theorem isSourcePath_iff {path : Bytes} : isSourcePath path = true ↔ IsSource path := by
  unfold isSourcePath extension? IsSource
  cases fileName? path with
  | none => simp
  | some name =>
    rw [Option.bind_some, beq_iff_eq, divideName_eq_rs_iff]
    simp

theorem mem_sourceAt {path p : Bytes} : p ∈ sourceAt path ↔ p = path ∧ IsSource p := by
  unfold sourceAt
  by_cases hsource : isSourcePath path
  · have hpath := isSourcePath_iff.1 hsource
    rw [if_pos hsource, List.mem_singleton]
    exact ⟨fun h => ⟨h, h ▸ hpath⟩, fun h => h.1⟩
  · rw [if_neg hsource]
    simp only [List.not_mem_nil, false_iff]
    rintro ⟨rfl, hp⟩
    exact hsource (isSourcePath_iff.2 hp)

end Files

/-! ## Many searches in one -/

section Lists

variable {α β ε : Type} {f : α → Except ε (List β)} {xs : List α} {ys : List (List β)}

theorem exists_mapM_iff : (∃ ys, xs.mapM f = .ok ys) ↔ ∀ x ∈ xs, ∃ y, f x = .ok y := by
  induction xs with
  | nil => simp [pure, Except.pure]
  | cons x xs ih =>
    rw [List.forall_mem_cons, ← ih, List.mapM_cons]
    constructor
    · rintro ⟨ys, h⟩
      obtain ⟨y, hy, h⟩ := bind_eq_ok_iff.1 h
      obtain ⟨rest, hrest, -⟩ := bind_eq_ok_iff.1 h
      exact ⟨⟨y, hy⟩, rest, hrest⟩
    · rintro ⟨⟨y, hy⟩, rest, hrest⟩
      exact ⟨y :: rest, bind_eq_ok_iff.2 ⟨y, hy, bind_eq_ok_iff.2 ⟨rest, hrest, rfl⟩⟩⟩

theorem mem_flatten_of_mapM (h : xs.mapM f = .ok ys) {b : β} :
    b ∈ ys.flatten ↔ ∃ x ∈ xs, ∃ y, f x = .ok y ∧ b ∈ y := by
  rw [mapM_eq_ok_iff] at h
  induction h with
  | nil => simp
  | @cons x y xs ys hxy _ ih =>
    rw [List.flatten_cons, List.mem_append, ih, List.exists_mem_cons_iff]
    refine or_congr_left ⟨fun hb => ⟨y, hxy, hb⟩, ?_⟩
    rintro ⟨y', hy', hb⟩
    cases hxy.symm.trans hy'
    exact hb

/-- Nothing is there twice if it is not within one part and not in two parts. -/
theorem nodup_flatten_of_mapM (h : xs.mapM f = .ok ys) (hxs : xs.Nodup)
    (hpart : ∀ x ∈ xs, ∀ y, f x = .ok y → y.Nodup)
    (hapart : ∀ x ∈ xs, ∀ x' ∈ xs, ∀ y y' b, f x = .ok y → f x' = .ok y' → b ∈ y → b ∈ y' →
      x = x') :
    ys.flatten.Nodup := by
  have hall := mapM_eq_ok_iff.1 h
  rw [List.nodup_flatten]
  constructor
  · intro y hy
    obtain ⟨x, hx, hxy⟩ : ∃ x ∈ xs, f x = .ok y := by
      clear h hxs hpart hapart
      induction hall with
      | nil => cases hy
      | @cons x y' xs ys hxy _ ih =>
        rcases List.mem_cons.1 hy with rfl | hy
        · exact ⟨x, List.mem_cons_self, hxy⟩
        · obtain ⟨x', hx', hxy'⟩ := ih hy
          exact ⟨x', List.mem_cons_of_mem _ hx', hxy'⟩
    exact hpart x hx y hxy
  · clear h
    induction hall with
    | nil => exact List.Pairwise.nil
    | @cons x y xs ys hxy hrest ih =>
      rw [List.nodup_cons] at hxs
      have hlater := ih hxs.2 (fun x hx => hpart x (List.mem_cons_of_mem _ hx))
        fun x hx x' hx' => hapart x (List.mem_cons_of_mem _ hx) x' (List.mem_cons_of_mem _ hx')
      refine List.pairwise_cons.2 ⟨fun y' hy' b hb hb' => ?_, hlater⟩
      have hflat : b ∈ ys.flatten := List.mem_flatten.2 ⟨y', hy', hb'⟩
      obtain ⟨x', hx', z, hz, hbz⟩ := (mem_flatten_of_mapM (mapM_eq_ok_iff.2 hrest)).1 hflat
      obtain rfl := hapart x List.mem_cons_self x' (List.mem_cons_of_mem _ hx') y z b hxy hz hb hbz
      exact hxs.1 hx'

end Lists

/-! ## What the search looks into -/

namespace FileSystem

variable {fs : FileSystem} {root dir p : Bytes} {name : Name} {found : List Bytes}

/-- The name is met where the directory at `dir` is listed. -/
def Lists (fs : FileSystem) (dir : Bytes) (name : Name) : Prop :=
  ∃ refusals entries, fs.find? dir = some (.directory refusals entries) ∧
    refusals.listing = none ∧ name ∈ entries.map Prod.fst

/-- A directory stands at `dir`, and can be listed to the end. -/
def Listable (fs : FileSystem) (dir : Bytes) : Prop :=
  ∃ refusals entries, fs.find? dir = some (.directory refusals entries) ∧
    refusals.listing = none ∧ refusals.goingOn = none

/-- The search from `root` looks into `dir`. -/
inductive Searched (fs : FileSystem) (root : Bytes) : Bytes → Prop where
  | start : Files.IsKept root → fs.isFile root = false → Searched fs root root
  | entry {dir : Bytes} {name : Name} :
      Searched fs root dir → fs.Lists dir name →
      fs.isDirectory (Files.join dir name.bytes) = true →
      Files.IsKept (Files.join dir name.bytes) → Searched fs root (Files.join dir name.bytes)

/-- A file at `p` is found by the search from `root`, which takes for a file whatever is no
directory. -/
def Finds (fs : FileSystem) (root p : Bytes) : Prop :=
  Files.IsSource p ∧
    ((Files.IsKept root ∧ fs.isFile root = true ∧ p = root) ∨
      ∃ dir name, fs.Searched root dir ∧ fs.Lists dir name ∧ p = Files.join dir name.bytes ∧
        fs.isDirectory p = false)

theorem isFile_eq_false_of_isDirectory (h : fs.isDirectory p = true) : fs.isFile p = false := by
  obtain ⟨refusals, entries, hfind⟩ := isDirectory_iff.1 h
  unfold isFile
  rw [hfind]

theorem list_eq_ok_iff {names : List Name} {goingOn : Option FileError} :
    fs.list dir = .ok (names, goingOn) ↔
      ∃ refusals entries, fs.find? dir = some (.directory refusals entries) ∧
        refusals.listing = none ∧ names = entries.map Prod.fst ∧ goingOn = refusals.goingOn := by
  unfold list find?
  cases fs.resolve dir with
  | error cause => simp [bind, Except.bind]
  | ok place =>
    simp only [bind, Except.bind]
    cases fs.root.get? place with
    | none => simp [throw, throwThe, MonadExceptOf.throw]
    | some e =>
      cases e with
      | directory refusals entries =>
        cases hlisting : refusals.listing with
        | none =>
          simp only [hlisting, pure, Except.pure]
          constructor
          · intro h
            cases h
            exact ⟨refusals, entries, rfl, hlisting, rfl, rfl⟩
          · rintro ⟨r, es, heq, -, rfl, rfl⟩
            cases heq
            rfl
        | some cause =>
          simp only [hlisting, throw, throwThe, MonadExceptOf.throw]
          constructor
          · intro h
            cases h
          · rintro ⟨r, es, heq, hnone, -⟩
            cases heq
            rw [hlisting] at hnone
            cases hnone
      | _ => simp [throw, throwThe, MonadExceptOf.throw]

/-- A search is a search from each of the directories that `root` has. -/
theorem searched_iff :
    fs.Searched root dir ↔ (Files.IsKept root ∧ fs.isFile root = false) ∧
      (dir = root ∨ ∃ name, fs.Lists root name ∧
        fs.isDirectory (Files.join root name.bytes) = true ∧
        fs.Searched (Files.join root name.bytes) dir) := by
  constructor
  · intro h
    induction h with
    | start hkept hfile => exact ⟨⟨hkept, hfile⟩, .inl rfl⟩
    | @entry dir name _ hlists hdirectory hkept ih =>
      refine ⟨ih.1, .inr ?_⟩
      rcases ih.2 with rfl | ⟨first, hfirst, hfirstDirectory, hsearched⟩
      · exact ⟨name, hlists, hdirectory, .start hkept (isFile_eq_false_of_isDirectory hdirectory)⟩
      · exact ⟨first, hfirst, hfirstDirectory, .entry hsearched hlists hdirectory hkept⟩
  · rintro ⟨⟨hkept, hfile⟩, rfl | ⟨first, hfirst, hfirstDirectory, hsearched⟩⟩
    · exact .start hkept hfile
    · induction hsearched with
      | start hkept' _ => exact .entry (.start hkept hfile) hfirst hfirstDirectory hkept'
      | entry _ hlists hdirectory hkept' ih => exact .entry ih hlists hdirectory hkept'

/-- What is found in a directory that is looked into. -/
theorem finds_iff (hkept : Files.IsKept root) (hfile : fs.isFile root = false) :
    fs.Finds root p ↔ ∃ name, fs.Lists root name ∧
      ((fs.isDirectory (Files.join root name.bytes) = true ∧
          fs.Finds (Files.join root name.bytes) p) ∨
        (fs.isDirectory (Files.join root name.bytes) = false ∧
          p = Files.join root name.bytes ∧ Files.IsSource p)) := by
  constructor
  · rintro ⟨hsource, ⟨-, hfile', -⟩ | ⟨dir, name, hsearched, hlists, rfl, hp⟩⟩
    · rw [hfile] at hfile'
      cases hfile'
    · rcases (searched_iff.1 hsearched).2 with rfl | ⟨first, hfirst, hfirstDirectory, hbelow⟩
      · exact ⟨name, hlists, .inr ⟨hp, rfl, hsource⟩⟩
      · exact ⟨first, hfirst,
          .inl ⟨hfirstDirectory, hsource, .inr ⟨dir, name, hbelow, hlists, rfl, hp⟩⟩⟩
  · rintro ⟨first, hfirst, ⟨hfirstDirectory, hsource, hbelow⟩ | ⟨hp, rfl, hsource⟩⟩
    · refine ⟨hsource, .inr ?_⟩
      rcases hbelow with ⟨-, hfile', -⟩ | ⟨dir, name, hsearched, hlists, rfl, hp⟩
      · rw [isFile_eq_false_of_isDirectory hfirstDirectory] at hfile'
        cases hfile'
      · have hdir := searched_iff.2
          ⟨⟨hkept, hfile⟩, .inr ⟨first, hfirst, hfirstDirectory, hsearched⟩⟩
        exact ⟨dir, name, hdir, hlists, rfl, hp⟩
    · exact ⟨hsource, .inr ⟨root, first, .start hkept hfile, hfirst, rfl, hp⟩⟩

/-! ## What the search gives -/

/-- What the search gives for one entry of a directory. -/
def sourcesOf (fs : FileSystem) (dir : Bytes) (name : Name) : Except RunError (List Bytes) :=
  if fs.isDirectory (Files.join dir name.bytes) then fs.sourcesBelow (Files.join dir name.bytes)
  else .ok (sourceAt (Files.join dir name.bytes))

theorem sourcesBelow_skipped (h : isSkipped root = true) : fs.sourcesBelow root = .ok [] := by
  rw [sourcesBelow, if_pos h]

theorem sourcesBelow_file (h : ¬ isSkipped root = true) (hfile : fs.isFile root = true) :
    fs.sourcesBelow root = .ok (sourceAt root) := by
  rw [sourcesBelow, if_neg h, if_pos hfile]

theorem sourcesBelow_unreadable (h : ¬ isSkipped root = true) (hfile : ¬ fs.isFile root = true)
    {cause : FileError} (hlist : fs.list root = .error cause) :
    fs.sourcesBelow root = .error (.directoryUnreadable root.display cause) := by
  rw [sourcesBelow, if_neg h, if_neg hfile, hlist]

theorem sourcesBelow_eq_ok_iff (h : ¬ isSkipped root = true) (hfile : ¬ fs.isFile root = true)
    {names : List Name} {goingOn : Option FileError} (hlist : fs.list root = .ok (names, goingOn)) :
    fs.sourcesBelow root = .ok found ↔
      goingOn = none ∧ ∃ parts, names.mapM (fs.sourcesOf root) = .ok parts ∧
        found = parts.flatten := by
  have hparts : (names.mapM fun name =>
      if _h : fs.isDirectory (Files.join root name.bytes) then
        fs.sourcesBelow (Files.join root name.bytes)
      else .ok (sourceAt (Files.join root name.bytes))) = names.mapM (fs.sourcesOf root) := rfl
  rw [sourcesBelow, if_neg h, if_neg hfile, hlist]
  dsimp only
  rw [hparts, bind_eq_ok_iff]
  cases goingOn with
  | none =>
    constructor
    · rintro ⟨parts, hmap, heq⟩
      cases heq
      exact ⟨rfl, parts, hmap, rfl⟩
    · rintro ⟨-, parts, hmap, rfl⟩
      exact ⟨parts, hmap, rfl⟩
  | some cause =>
    constructor
    · rintro ⟨parts, -, heq⟩
      cases heq
    · rintro ⟨hnone, -⟩
      cases hnone

theorem lists_of_list {names : List Name} {goingOn : Option FileError}
    (hlist : fs.list root = .ok (names, goingOn)) : fs.Lists root name ↔ name ∈ names := by
  obtain ⟨refusals, entries, hfind, hlisting, rfl, -⟩ := list_eq_ok_iff.1 hlist
  constructor
  · rintro ⟨r, es, hfind', -, hmem⟩
    cases hfind.symm.trans hfind'
    exact hmem
  · exact fun hmem => ⟨refusals, entries, hfind, hlisting, hmem⟩

theorem listable_of_list {names : List Name} {goingOn : Option FileError}
    (hlist : fs.list root = .ok (names, goingOn)) : fs.Listable root ↔ goingOn = none := by
  obtain ⟨refusals, entries, hfind, hlisting, -, rfl⟩ := list_eq_ok_iff.1 hlist
  constructor
  · rintro ⟨r, es, hfind', -, hgoingOn⟩
    cases hfind.symm.trans hfind'
    exact hgoingOn
  · exact fun hgoingOn => ⟨refusals, entries, hfind, hlisting, hgoingOn⟩

theorem not_listable_of_list {cause : FileError} (hlist : fs.list root = .error cause) :
    ¬ fs.Listable root := by
  rintro ⟨refusals, entries, hfind, hlisting, -⟩
  cases hlist.symm.trans (list_eq_ok_iff.2 ⟨refusals, entries, hfind, hlisting, rfl, rfl⟩)

theorem isKept_of_not (h : ¬ isSkipped root = true) : Files.IsKept root :=
  Files.isSkipped_eq_false_iff.1 (by simpa using h)

theorem not_isKept (h : isSkipped root = true) : ¬ Files.IsKept root := by
  intro hkept
  rw [Files.isSkipped_eq_false_iff.2 hkept] at h
  cases h

/-- **The search succeeds** if every directory that it looks into can be listed. -/
theorem exists_sourcesBelow_iff (fs : FileSystem) (root : Bytes) :
    (∃ found, fs.sourcesBelow root = .ok found) ↔
      ∀ dir, fs.Searched root dir → fs.Listable dir := by
  induction root using sourcesBelow.induct fs with
  | case1 root hskipped =>
    refine iff_of_true ⟨[], sourcesBelow_skipped hskipped⟩ fun dir hsearched => ?_
    exact absurd (searched_iff.1 hsearched).1.1 (not_isKept hskipped)
  | case2 root hskipped hfile =>
    refine iff_of_true ⟨_, sourcesBelow_file hskipped hfile⟩ fun dir hsearched => ?_
    rw [(searched_iff.1 hsearched).1.2] at hfile
    cases hfile
  | case3 root hskipped hfile cause hlist =>
    refine iff_of_false ?_ fun h => ?_
    · rintro ⟨found, hfound⟩
      cases (sourcesBelow_unreadable hskipped hfile hlist).symm.trans hfound
    · exact not_listable_of_list hlist
        (h root (.start (isKept_of_not hskipped) (by simpa using hfile)))
  | case4 root hskipped hfile names goingOn hlist ih =>
    have hkept := isKept_of_not hskipped
    have hnoFile : fs.isFile root = false := by simpa using hfile
    have hpart (name : Name) : (∃ part, fs.sourcesOf root name = .ok part) ↔
        (fs.isDirectory (Files.join root name.bytes) = true →
          ∀ dir, fs.Searched (Files.join root name.bytes) dir → fs.Listable dir) := by
      unfold sourcesOf
      by_cases hdirectory : fs.isDirectory (Files.join root name.bytes) = true
      · rw [if_pos hdirectory, ih name hdirectory]
        exact ⟨fun h _ => h, fun h => h hdirectory⟩
      · rw [if_neg hdirectory]
        exact iff_of_true ⟨_, rfl⟩ fun h => absurd h hdirectory
    constructor
    · rintro ⟨found, hfound⟩ dir hsearched
      obtain ⟨hgoingOn, parts, hparts, -⟩ := (sourcesBelow_eq_ok_iff hskipped hfile hlist).1 hfound
      rcases (searched_iff.1 hsearched).2 with rfl | ⟨name, hlists, hdirectory, hbelow⟩
      · exact (listable_of_list hlist).2 hgoingOn
      · have hname := exists_mapM_iff.1 ⟨parts, hparts⟩ name ((lists_of_list hlist).1 hlists)
        exact (hpart name).1 hname hdirectory dir hbelow
    · intro h
      have hgoingOn := (listable_of_list hlist).1 (h root (.start hkept hnoFile))
      have hall : ∀ name ∈ names, ∃ part, fs.sourcesOf root name = .ok part := by
        intro name hmem
        refine (hpart name).2 fun hdirectory dir hbelow => h dir ?_
        exact searched_iff.2 ⟨⟨hkept, hnoFile⟩,
          .inr ⟨name, (lists_of_list hlist).2 hmem, hdirectory, hbelow⟩⟩
      obtain ⟨parts, hparts⟩ := exists_mapM_iff.2 hall
      exact ⟨parts.flatten, (sourcesBelow_eq_ok_iff hskipped hfile hlist).2
        ⟨hgoingOn, parts, hparts, rfl⟩⟩

/-- **What the search finds.** -/
theorem mem_sourcesBelow (h : fs.sourcesBelow root = .ok found) : p ∈ found ↔ fs.Finds root p := by
  induction root using sourcesBelow.induct fs generalizing found with
  | case1 root hskipped =>
    cases (sourcesBelow_skipped hskipped).symm.trans h
    simp only [List.not_mem_nil, false_iff]
    rintro ⟨-, ⟨hkept, -⟩ | ⟨dir, name, hsearched, -⟩⟩
    · exact not_isKept hskipped hkept
    · exact not_isKept hskipped (searched_iff.1 hsearched).1.1
  | case2 root hskipped hfile =>
    cases (sourcesBelow_file hskipped hfile).symm.trans h
    rw [Files.mem_sourceAt]
    constructor
    · exact fun ⟨hp, hsource⟩ => ⟨hsource, .inl ⟨isKept_of_not hskipped, hfile, hp⟩⟩
    · rintro ⟨hsource, ⟨-, -, hp⟩ | ⟨dir, name, hsearched, -⟩⟩
      · exact ⟨hp, hsource⟩
      · rw [(searched_iff.1 hsearched).1.2] at hfile
        cases hfile
  | case3 root hskipped hfile cause hlist =>
    cases (sourcesBelow_unreadable hskipped hfile hlist).symm.trans h
  | case4 root hskipped hfile names goingOn hlist ih =>
    obtain ⟨-, parts, hparts, rfl⟩ := (sourcesBelow_eq_ok_iff hskipped hfile hlist).1 h
    rw [mem_flatten_of_mapM hparts, finds_iff (isKept_of_not hskipped) (by simpa using hfile)]
    refine exists_congr fun name => ?_
    rw [← lists_of_list hlist]
    refine and_congr_right fun hlists => ?_
    unfold sourcesOf
    by_cases hdirectory : fs.isDirectory (Files.join root name.bytes) = true
    · -- If the search below gave nothing, the whole search would have failed.
      obtain ⟨part, hpart⟩ :=
        exists_mapM_iff.1 ⟨parts, hparts⟩ name ((lists_of_list hlist).1 hlists)
      rw [sourcesOf, if_pos hdirectory] at hpart
      simp [hdirectory, hpart, ih name hdirectory hpart]
    · simp [hdirectory, Files.mem_sourceAt]

/-! ## No path is found twice -/

theorem Searched.exists_names (h : fs.Searched root dir) :
    ∃ names, dir = Files.below root names := by
  induction h with
  | start => exact ⟨[], rfl⟩
  | @entry dir name _ _ _ _ ih =>
    obtain ⟨names, rfl⟩ := ih
    exact ⟨names ++ [name], (Files.below_concat _ _ _).symm⟩

theorem Finds.exists_names (h : fs.Finds root p) : ∃ names, p = Files.below root names := by
  obtain ⟨-, ⟨-, -, rfl⟩ | ⟨dir, name, hsearched, -, rfl, -⟩⟩ := h
  · exact ⟨[], rfl⟩
  · obtain ⟨names, rfl⟩ := hsearched.exists_names
    exact ⟨names ++ [name], (Files.below_concat _ _ _).symm⟩

/-- What is found in one entry is the path with its name, and names behind it. -/
theorem exists_names_of_sourcesOf (h : fs.sourcesOf root name = .ok found) (hp : p ∈ found) :
    ∃ names, p = Files.below root (name :: names) := by
  unfold sourcesOf at h
  split at h
  · exact ((mem_sourcesBelow h).1 hp).exists_names
  · cases h
    exact ⟨[], (Files.mem_sourceAt.1 hp).1⟩

theorem nodup_sourceAt (path : Bytes) : (sourceAt path).Nodup := by
  unfold sourceAt
  split <;> simp

theorem nodup_of_list (hfs : fs.root.WellNamed) {names : List Name} {goingOn : Option FileError}
    (hlist : fs.list root = .ok (names, goingOn)) : names.Nodup := by
  obtain ⟨refusals, entries, hfind, -, rfl, -⟩ := list_eq_ok_iff.1 hlist
  obtain ⟨place, -, hget⟩ := find?_eq_some_iff.1 hfind
  exact hfs place refusals entries hget

theorem nodup_sourcesBelow (hfs : fs.root.WellNamed) (hroot : root ≠ [])
    (h : fs.sourcesBelow root = .ok found) : found.Nodup := by
  induction root using sourcesBelow.induct fs generalizing found with
  | case1 root hskipped =>
    cases (sourcesBelow_skipped hskipped).symm.trans h
    exact List.nodup_nil
  | case2 root hskipped hfile =>
    cases (sourcesBelow_file hskipped hfile).symm.trans h
    exact nodup_sourceAt root
  | case3 root hskipped hfile cause hlist =>
    cases (sourcesBelow_unreadable hskipped hfile hlist).symm.trans h
  | case4 root hskipped hfile names goingOn hlist ih =>
    obtain ⟨-, parts, hparts, rfl⟩ := (sourcesBelow_eq_ok_iff hskipped hfile hlist).1 h
    refine nodup_flatten_of_mapM hparts (nodup_of_list hfs hlist) (fun name _ part hpart => ?_) ?_
    · unfold sourcesOf at hpart
      split at hpart
      · next hdirectory => exact ih name hdirectory (Files.join_ne_nil hroot name.isName) hpart
      · cases hpart
        exact nodup_sourceAt _
    · intro name _ name' _ part part' p hpart hpart' hp hp'
      obtain ⟨below, rfl⟩ := exists_names_of_sourcesOf hpart hp
      obtain ⟨below', heq⟩ := exists_names_of_sourcesOf hpart' hp'
      exact (List.cons.inj (Files.below_injective hroot (congrArg Files.components heq))).1

end FileSystem

end Calligraph
