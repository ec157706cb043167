import Calligraph.Proofs.Files.Sources
import Calligraph.Proofs.FirstOccurrence

/-!
# The sources of a configuration

The paths that a configuration leads to are told apart by the texts that they are shown as. Each
text stands once among the sources, where it is first reached. Two texts may be paths of one file,
and then the file is there twice (`Config.collect_respelled`). Without links, this does not happen
among the files of one folder, and not if all inputs and folders are spelled alike: from a common
start, each goes down by names (`Files.GoesDown`).
-/

namespace Calligraph

open Files (Name)
open List (Forall₂)

/-! ## Paths that go down from a common start -/

namespace Files

variable {dir path root : Bytes} {name : Name} {names : List Name} {lead : List Bytes}
  {rooted : Bool}

/-- The path starts with the pieces `lead` and goes down by names. It does not end with a slash. -/
structure GoesDown (rooted : Bool) (lead : List Bytes) (path : Bytes) : Prop where
  isRooted_eq : isRooted path = rooted
  pieces_eq : ∃ names, (∀ n ∈ names, IsName n) ∧ pieces path = lead ++ names
  noSlash : (pieces path).getLast? ≠ some []

theorem ne_nil_of_noSlash (h : (pieces path).getLast? ≠ some []) : path ≠ [] := by
  rintro rfl
  exact h rfl

theorem pieces_join (hdir : (pieces dir).getLast? ≠ some []) (name : Name) :
    pieces (join dir name.bytes) = pieces dir ++ [name.bytes] := by
  rcases pieces_join_cases (ne_nil_of_noSlash hdir) name.isName with
    ⟨front, -, hpieces, -⟩ | hjoined
  · rw [hpieces, List.getLast?_concat] at hdir
    exact absurd rfl hdir
  · exact hjoined

/-- What stands below a path goes down from the same start. -/
theorem GoesDown.join (h : GoesDown rooted lead dir) (name : Name) :
    GoesDown rooted lead (join dir name.bytes) := by
  obtain ⟨above, habove, hpieces⟩ := h.pieces_eq
  have hjoined := pieces_join h.noSlash name
  refine ⟨?_, ⟨above ++ [name.bytes], ?_, ?_⟩, ?_⟩
  · rw [isRooted_join (ne_nil_of_noSlash h.noSlash) name.isName, h.isRooted_eq]
  · exact List.forall_mem_append.2 ⟨habove, List.forall_mem_singleton.2 name.isName⟩
  · rw [hjoined, hpieces, List.append_assoc]
  · rw [hjoined, List.getLast?_concat]
    exact fun heq => name.isName.1 (Option.some.inj heq)

theorem GoesDown.below (h : GoesDown rooted lead root) (names : List Name) :
    GoesDown rooted lead (below root names) := by
  induction names using List.reverseRecOn with
  | nil => exact h
  | append_singleton names name ih =>
    rw [below_concat]
    exact ih.join name

end Files

/-! ## Where paths lead -/

namespace FileSystem

variable {fs : FileSystem} {path root p q : Bytes} {names place : List Name} {lead : List Bytes}
  {rooted : Bool} {files : List Bytes}

section NoLinks

variable (hlinks : fs.root.NoLinks)

include hlinks

/-- Names lead down from where the path before them leads. -/
theorem exists_of_resolve_below (hroot : root ≠ [])
    (h : fs.resolve (Files.below root names) = .ok place) :
    ∃ base, fs.resolve root = .ok base ∧ place = base ++ names := by
  induction names using List.reverseRecOn generalizing place with
  | nil => exact ⟨place, h, (List.append_nil _).symm⟩
  | append_singleton names name ih =>
    rw [Files.below_concat] at h
    obtain ⟨-, middle, -, hmiddle, -, rfl, -⟩ :=
      (resolve_join_iff hlinks (Files.below_ne_nil hroot names)).1 h
    obtain ⟨base, hbase, rfl⟩ := ih hmiddle
    exact ⟨base, hbase, List.append_assoc _ _ _⟩

/-- Paths that go down from the same start and lead to the same place are the same. -/
theorem eq_of_goesDown (hp : Files.GoesDown rooted lead p) (hq : Files.GoesDown rooted lead q)
    (hplace : fs.resolve p = .ok place) (hplace' : fs.resolve q = .ok place) : p = q := by
  obtain ⟨names, hnames, hpieces⟩ := hp.pieces_eq
  obtain ⟨names', hnames', hpieces'⟩ := hq.pieces_eq
  have horigin : origin p fs.workDir = origin q fs.workDir := by
    unfold origin
    rw [hp.isRooted_eq, hq.isRooted_eq]
  have hleads := (resolve_eq_ok_iff.1 hplace).2
  have hleads' := (resolve_eq_ok_iff.1 hplace').2
  rw [hpieces, leads_append_iff hlinks] at hleads
  rw [hpieces', ← horigin, leads_append_iff hlinks] at hleads'
  obtain ⟨base, hbase, hrest⟩ := hleads
  obtain ⟨base', hbase', hrest'⟩ := hleads'
  obtain rfl : base = base' := by
    have hsame := hbase.walk_eq.symm.trans hbase'.walk_eq
    cases hsame
    rfl
  have hsame : base.map Name.bytes ++ names = base.map Name.bytes ++ names' :=
    (eq_of_leads_names hlinks hnames hrest).symm.trans (eq_of_leads_names hlinks hnames' hrest')
  apply Files.pieces_injective
  rw [hpieces, hpieces', List.append_cancel_left hsame]

/-- The files of one folder are told apart by their paths. -/
theorem eq_of_mem_sourceFiles (hfiles : fs.sourceFiles root = .ok files) (hp : p ∈ files)
    (hq : q ∈ files) (hplace : fs.resolve p = .ok place) (hplace' : fs.resolve q = .ok place) :
    p = q := by
  have hroot : root ≠ [] := by
    rintro rfl
    exact not_finds rfl ((mem_sourceFiles hfiles).1 hp)
  obtain ⟨names, rfl⟩ := ((mem_sourceFiles hfiles).1 hp).exists_names
  obtain ⟨names', rfl⟩ := ((mem_sourceFiles hfiles).1 hq).exists_names
  obtain ⟨base, hbase, rfl⟩ := exists_of_resolve_below hlinks hroot hplace
  obtain ⟨base', hbase', hsame⟩ := exists_of_resolve_below hlinks hroot hplace'
  obtain rfl : base = base' := Except.ok.inj (hbase.symm.trans hbase')
  rw [List.append_cancel_left hsame]

end NoLinks

end FileSystem

/-! ## The sources -/

namespace Config

variable {c : Config} {fs : FileSystem} {sources : List Source} {rooted : Bool}
  {lead reached : List Bytes}

/-- A source was read from what its path leads to. -/
theorem exists_place_of_source {path : Bytes} {source : Source} (h : fs.source path = .ok source) :
    source.id = path.display ∧ ∃ place, fs.resolve path = .ok place := by
  unfold FileSystem.source at h
  split at h
  · next text htext =>
    cases h
    obtain ⟨place, hplace, -⟩ := bind_eq_ok_iff.1 htext
    exact ⟨rfl, place, hplace⟩
  · cases h

/-- The sources are read at the paths that are reached, of which only the first is taken where
several are shown alike. -/
theorem exists_paths_of_collect (h : c.collect fs = .ok sources) :
    ∃ reached paths, c.reached fs = .ok reached ∧ paths ⊆ reached ∧
      Forall₂ (fun p x => fs.source p = .ok x) paths sources ∧
      paths.map Bytes.display = (reached.map Bytes.display).eraseDups := by
  unfold collect at h
  obtain ⟨paths, hpaths, h⟩ := bind_eq_ok_iff.1 h
  obtain ⟨reached, hreached, heq⟩ := bind_eq_ok_iff.1 hpaths
  cases heq
  split at h
  · cases h
  · exact ⟨reached, _, hreached, fun _ => mem_of_mem_eraseDupsBy, mapM_eq_ok_iff.1 h,
      map_eraseDupsBy _ _⟩

theorem ids_of_forall₂ {paths : List Bytes}
    (h : Forall₂ (fun p x => fs.source p = .ok x) paths sources) :
    sources.map Source.id = paths.map Bytes.display ∧
      ∀ p ∈ paths, ∃ place, fs.resolve p = .ok place := by
  induction h with
  | nil => exact ⟨rfl, List.forall_mem_nil _⟩
  | @cons path source paths sources hsource _ ih =>
    obtain ⟨hid, hplace⟩ := exists_place_of_source hsource
    refine ⟨?_, List.forall_mem_cons.2 ⟨hplace, ih.2⟩⟩
    rw [List.map_cons, List.map_cons, hid, ih.1]

theorem goesDown_of_mem_reached
    (h : ∀ path ∈ c.inputs ++ c.folders, Files.GoesDown rooted lead path)
    (hreached : c.reached fs = .ok reached) {p : Bytes} (hp : p ∈ reached) :
    Files.GoesDown rooted lead p := by
  obtain ⟨parts, hparts, heq⟩ := bind_eq_ok_iff.1 hreached
  cases heq
  rcases List.mem_append.1 hp with hinput | hlisted
  · exact h p (List.mem_append_left _ hinput)
  · obtain ⟨folder, hfolder, files, hfiles, hmem⟩ := (mem_flatten_of_mapM hparts).1 hlisted
    obtain ⟨names, rfl⟩ := ((FileSystem.mem_sourceFiles hfiles).1 hmem).exists_names
    exact (h folder (List.mem_append_right _ hfolder)).below names

/-- **Sources are told apart by the texts of their paths.** Each text that is reached stands once
among the sources, in the order in which the texts are first reached. Without links, the files of a
folder are there at most once each. If also all inputs and folders go down from the same start, no
two sources are of one file, and no path but that of the source leads to the file. -/
theorem collect_by_path (h : c.collect fs = .ok sources) :
    ∃ reached paths, c.reached fs = .ok reached ∧ paths ⊆ reached ∧
      Forall₂ (fun p x => fs.source p = .ok x) paths sources ∧
      let ids := sources.map Source.id
      let shown := reached.map Bytes.display
      ids = paths.map Bytes.display ∧ ids.Nodup ∧ (∀ text, text ∈ ids ↔ text ∈ shown) ∧
      ids.Pairwise (fun s t => shown.idxOf s < shown.idxOf t) ∧
      (fs.root.NoLinks →
        (∀ folder ∈ c.folders, ∀ files, fs.sourceFiles folder = .ok files → ∀ p ∈ paths,
          ∀ q ∈ paths, p ∈ files → q ∈ files → fs.resolve p = fs.resolve q → p = q) ∧
        ∀ rooted lead, (∀ path ∈ c.inputs ++ c.folders, Files.GoesDown rooted lead path) →
          (paths.map fs.resolve).Nodup ∧
          ∀ p ∈ paths, ∀ q ∈ reached, fs.resolve q = fs.resolve p → q = p) := by
  obtain ⟨reached, paths, hreached, hsubset, hread, hpaths⟩ := exists_paths_of_collect h
  obtain ⟨hids, hplaces⟩ := ids_of_forall₂ hread
  refine ⟨reached, paths, hreached, hsubset, hread, hids, ?_, fun text => ?_, ?_,
    fun hlinks => ⟨?_, ?_⟩⟩
  · rw [hids, hpaths]
    exact nodup_eraseDups _
  · rw [hids, hpaths, List.mem_eraseDups]
  · rw [hids, hpaths]
    exact pairwise_idxOf_eraseDups _
  · intro folder _ files hfiles p hp q _ hpmem hqmem hsame
    obtain ⟨place, hplace⟩ := hplaces p hp
    exact FileSystem.eq_of_mem_sourceFiles hlinks hfiles hpmem hqmem hplace (hsame ▸ hplace)
  · intro rooted lead hdown
    have honly : ∀ p ∈ paths, ∀ q ∈ reached, fs.resolve q = fs.resolve p → q = p := by
      intro p hp q hq hsame
      obtain ⟨place, hplace⟩ := hplaces p hp
      exact FileSystem.eq_of_goesDown hlinks (goesDown_of_mem_reached hdown hreached hq)
        (goesDown_of_mem_reached hdown hreached (hsubset hp)) (hsame ▸ hplace) hplace
    have hnodup : paths.Nodup := List.Nodup.of_map Bytes.display (hpaths ▸ nodup_eraseDups _)
    exact ⟨hnodup.map_on fun p hp q hq hsame => honly q hq p (hsubset hp) hsame, honly⟩

/-- Two directories with a file each. -/
def twoFolders : FileSystem :=
  { root := .directory {} [
      (.ofText "app" rfl, .directory {} [(.ofText "main.rs" rfl, .file {} [])]),
      (.ofText "lib" rfl, .directory {} [(.ofText "util.rs" rfl, .file {} [])])] }

theorem noLinks_twoFolders : twoFolders.root.NoLinks := by
  have hfolder (name : Name) : ∀ place e,
      (FileEntry.directory {} [(name, .file {} [])]).get? place = some e →
        ∀ target, e ≠ .link target :=
    FileEntry.forall_get?_directory (P := fun _ e => ∀ target, e ≠ .link target) (by simp)
      (List.forall_mem_singleton.2 (FileEntry.forall_get?_leaf (by simp) (by simp)))
  intro place target h
  refine FileEntry.forall_get?_directory (P := fun _ e => ∀ target, e ≠ .link target) (by simp)
    (List.forall_mem_cons.2 ⟨hfolder _, List.forall_mem_singleton.2 (hfolder _)⟩) place _ h target
    rfl

/-- A file that is an input and in a folder is a source once, as an input. -/
theorem collect_by_path_twoFolders :
    let c : Config := { inputs := ["lib/util.rs"], folders := ["app", "lib"] }
    c.reached twoFolders = .ok ["lib/util.rs", "app/main.rs", "lib/util.rs"] ∧
    ∃ sources, c.collect twoFolders = .ok sources ∧
      sources.map Source.id = ["lib/util.rs", "app/main.rs"] ∧
      ∃ paths, Forall₂ (fun p x => twoFolders.source p = .ok x) paths sources ∧
        (paths.map twoFolders.resolve).Nodup := by
  intro c
  have hdown : ∀ path ∈ c.inputs ++ c.folders, Files.GoesDown false [] path := by
    refine List.forall_mem_cons.2 ⟨?_, List.forall_mem_cons.2 ⟨?_, List.forall_mem_singleton.2 ?_⟩⟩
    · exact ⟨by decide, ⟨["lib", "util.rs"], by decide, by decide⟩, by decide⟩
    · exact ⟨by decide, ⟨["app"], by decide, by decide⟩, by decide⟩
    · exact ⟨by decide, ⟨["lib"], by decide, by decide⟩, by decide⟩
  have hcollect : c.collect twoFolders =
      .ok [⟨"lib/util.rs", "", []⟩, ⟨"app/main.rs", "", []⟩] := by decide +kernel
  obtain ⟨_, paths, -, -, hread, -, -, -, -, hfiles⟩ := collect_by_path hcollect
  exact ⟨by decide +kernel, _, hcollect, rfl, paths, hread,
    ((hfiles noLinks_twoFolders).2 false [] hdown).1⟩

/-- A file that is reached by two texts is a source twice. -/
theorem collect_respelled :
    let fs : FileSystem := { root := .directory {} [(.ofText "a.rs" rfl, .file {} [])] }
    let c : Config := { inputs := ["a.rs", "./a.rs"] }
    c.collect fs = .ok [⟨"a.rs", "", []⟩, ⟨"./a.rs", "", []⟩] ∧
      fs.resolve "a.rs" = .ok [.ofText "a.rs" rfl] ∧
      fs.resolve "./a.rs" = .ok [.ofText "a.rs" rfl] := by
  decide +kernel

end Config

end Calligraph
