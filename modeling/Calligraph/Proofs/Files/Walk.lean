import Calligraph.Proofs.Files.Path
import Calligraph.Proofs.Files.Tree
import Calligraph.Proofs.Project.Load

/-!
# Where paths lead

`FileSystem.Leads` says piece by piece how a path is followed, links included, and is what the walk
along a path computes (`FileSystem.walk_eq_ok_iff`).
-/

namespace Calligraph

open Files (Name)

namespace FileSystem

/-- The place that a path leads to, or would if its last name was there. -/
def Spot.place : Spot → List Name
  | .taken place => place
  | .free dir name => dir ++ [name]

variable {fs : FileSystem} {created : Bool} {links : Nat} {place : List Name} {piece : Bytes}
  {rest : List Bytes} {spot : Spot} {name : Name}

/-! ## One piece after the other -/

/-- A directory stands at the place, and names can be looked up in it. -/
def Passable (fs : FileSystem) (place : List Name) : Prop :=
  ∃ refusals entries, fs.root.get? place = some (.directory refusals entries) ∧
    refusals.passing = none

/-- With at most so many links, pieces of a path lead from a place to a spot. -/
inductive Leads (fs : FileSystem) (created : Bool) :
    Nat → List Name → List Bytes → Spot → Prop where
  | done {links : Nat} {place : List Name} : Leads fs created links place [] (.taken place)
  | slash {links : Nat} {place : List Name} {rest : List Bytes} {spot : Spot}
      {refusals : DirectoryRefusals} {entries : List (Name × FileEntry)} :
      fs.root.get? place = some (.directory refusals entries) →
      Leads fs created links place rest spot → Leads fs created links place ([] :: rest) spot
  | here {links : Nat} {place : List Name} {rest : List Bytes} {spot : Spot} :
      fs.Passable place → isClosed created rest = false →
      Leads fs created links place rest spot →
      Leads fs created links place (Files.here :: rest) spot
  | up {links : Nat} {place : List Name} {rest : List Bytes} {spot : Spot} :
      fs.Passable place → isClosed created rest = false →
      Leads fs created links place.dropLast rest spot →
      Leads fs created links place (Files.up :: rest) spot
  | name {links : Nat} {place : List Name} {rest : List Bytes} {spot : Spot} {name : Name}
      {e : FileEntry} :
      fs.Passable place → isClosed created rest = false →
      fs.root.get? (place ++ [name]) = some e → (∀ target, e ≠ .link target) →
      Leads fs created links (place ++ [name]) rest spot →
      Leads fs created links place (name.bytes :: rest) spot
  | link {links : Nat} {place : List Name} {rest : List Bytes} {spot : Spot} {name : Name}
      {target : Bytes} :
      fs.Passable place → isClosed created rest = false →
      fs.root.get? (place ++ [name]) = some (.link target) →
      Leads fs created links (origin target place) (Files.pieces target ++ rest) spot →
      Leads fs created (links + 1) place (name.bytes :: rest) spot
  | free {links : Nat} {place : List Name} {name : Name} :
      fs.Passable place → fs.root.get? (place ++ [name]) = none →
      Leads fs created links place [name.bytes] (.free place name)

/-- How a walk goes on at a link. -/
def detour (fs : FileSystem) (created : Bool) :
    Nat → List Name → Bytes → List Bytes → Except FileError Spot
  | 0, _, _, _ => .error .tooManyLinks
  | links + 1, place, target, rest =>
    fs.walk created links (origin target place) (Files.pieces target ++ rest)

theorem walk_eq_lead (fs : FileSystem) (created : Bool) (links : Nat) :
    fs.walk created links = fs.lead created (fs.detour created links) := by
  cases links <;> rfl

theorem ofBytes?_eq_some_iff {bytes : Bytes} :
    Name.ofBytes? bytes = some name ↔ name.bytes = bytes := by
  unfold Name.ofBytes?
  constructor
  · intro h
    split at h
    · cases h
      rfl
    · cases h
  · rintro rfl
    rw [dif_pos ⟨name.isName, name.short, name.noNul⟩]

theorem leads_of_lead {follow : List Name → Bytes → List Bytes → Except FileError Spot}
    (hfollow : ∀ {place : List Name} {name : Name} {target : Bytes} {rest : List Bytes},
      fs.Passable place → isClosed created rest = false →
      fs.root.get? (place ++ [name]) = some (.link target) → follow place target rest = .ok spot →
      Leads fs created links place (name.bytes :: rest) spot) {pieces : List Bytes}
    (h : fs.lead created follow place pieces = .ok spot) :
    Leads fs created links place pieces spot := by
  induction pieces generalizing place with
  | nil =>
    cases h
    exact .done
  | cons piece rest ih =>
    unfold lead at h
    split at h
    · cases h
    · next refusals entries hget =>
      split at h
      · next hempty =>
        subst hempty
        exact .slash hget (ih h)
      split at h
      · cases h
      next hpassing =>
      have hpassable : fs.Passable place := ⟨refusals, entries, hget, hpassing⟩
      split at h
      · cases h
      next hclosed =>
      rw [Bool.not_eq_true] at hclosed
      split at h
      · next hhere =>
        subst hhere
        exact .here hpassable hclosed (ih h)
      split at h
      · next hup =>
        subst hup
        exact .up hpassable hclosed (ih h)
      split at h
      · cases h
      split at h
      · cases h
      next name hname =>
      obtain rfl := ofBytes?_eq_some_iff.1 hname
      rw [← FileEntry.get?_concat hget name] at h
      split at h
      · next target hlink => exact hfollow hpassable hclosed hlink h
      · next e hlink hentry =>
        exact .name hpassable hclosed hentry hlink (ih h)
      · next hfree =>
        split at h
        · next hrest =>
          cases h
          obtain rfl := List.isEmpty_iff.1 hrest
          exact .free hpassable hfree
        · cases h
    · cases h

section Name

variable {follow : List Name → Bytes → List Bytes → Except FileError Spot} {e : FileEntry}

theorem lead_link (hpassable : fs.Passable place) (hclosed : isClosed created rest = false)
    {target : Bytes} (hlink : fs.root.get? (place ++ [name]) = some (.link target)) :
    fs.lead created follow place (name.bytes :: rest) = follow place target rest := by
  obtain ⟨refusals, entries, hget, hpassing⟩ := hpassable
  obtain ⟨hempty, hhere, hup, -⟩ := name.isName
  rw [FileEntry.get?_concat hget] at hlink
  simp [lead, hget, hempty, hpassing, hclosed, hhere, hup, Nat.not_lt.2 name.short,
    ofBytes?_eq_some_iff.2 rfl, hlink]

theorem lead_entry (hpassable : fs.Passable place) (hclosed : isClosed created rest = false)
    (hentry : fs.root.get? (place ++ [name]) = some e) (hnone : ∀ target, e ≠ .link target) :
    fs.lead created follow place (name.bytes :: rest) =
      fs.lead created follow (place ++ [name]) rest := by
  obtain ⟨refusals, entries, hget, hpassing⟩ := hpassable
  obtain ⟨hempty, hhere, hup, -⟩ := name.isName
  rw [FileEntry.get?_concat hget] at hentry
  conv_lhs => unfold lead
  cases e with
  | link target => exact absurd rfl (hnone target)
  | _ =>
    simp [hget, hempty, hpassing, hclosed, hhere, hup, Nat.not_lt.2 name.short,
      ofBytes?_eq_some_iff.2 rfl, hentry]

theorem lead_free (hpassable : fs.Passable place)
    (hfree : fs.root.get? (place ++ [name]) = none) :
    fs.lead created follow place [name.bytes] = .ok (.free place name) := by
  obtain ⟨refusals, entries, hget, hpassing⟩ := hpassable
  obtain ⟨hempty, hhere, hup, -⟩ := name.isName
  rw [FileEntry.get?_concat hget] at hfree
  simp [lead, hget, hempty, hpassing, isClosed, hhere, hup, Nat.not_lt.2 name.short,
    ofBytes?_eq_some_iff.2 rfl, hfree]

end Name

theorem Leads.walk_eq {pieces : List Bytes} (h : Leads fs created links place pieces spot) :
    fs.walk created links place pieces = .ok spot := by
  induction h with
  | done =>
    rw [walk_eq_lead]
    rfl
  | slash hget _ ih =>
    rw [walk_eq_lead] at ih ⊢
    rw [lead, hget]
    exact ih
  | here hpassable hclosed _ ih =>
    obtain ⟨refusals, entries, hget, hpassing⟩ := hpassable
    rw [walk_eq_lead] at ih ⊢
    rw [lead, hget]
    simpa [Files.here, hpassing, hclosed] using ih
  | up hpassable hclosed _ ih =>
    obtain ⟨refusals, entries, hget, hpassing⟩ := hpassable
    rw [walk_eq_lead] at ih ⊢
    rw [lead, hget]
    simpa [Files.here, Files.up, hpassing, hclosed] using ih
  | name hpassable hclosed hentry hnone _ ih =>
    rw [walk_eq_lead] at ih ⊢
    rw [lead_entry hpassable hclosed hentry hnone]
    exact ih
  | link hpassable hclosed hlink _ ih =>
    rw [walk_eq_lead, lead_link hpassable hclosed hlink]
    exact ih
  | free hpassable hfree => rw [walk_eq_lead, lead_free hpassable hfree]

/-- **A walk along a path** goes piece by piece. -/
theorem walk_eq_ok_iff {pieces : List Bytes} :
    fs.walk created links place pieces = .ok spot ↔ Leads fs created links place pieces spot := by
  refine ⟨fun h => ?_, Leads.walk_eq⟩
  induction links generalizing place pieces with
  | zero => exact leads_of_lead (fun _ _ _ hfollow => by cases hfollow) h
  | succ links ih =>
    refine leads_of_lead (fun hpassable hclosed hlink hfollow => ?_) h
    exact .link hpassable hclosed hlink (ih hfollow)

/-- A slash leads nowhere else. -/
theorem eq_of_leads_slash {goal : List Name} (hpiece : piece = [])
    (h : Leads fs created links place [piece] (.taken goal)) : goal = place := by
  cases h with
  | slash _ h =>
    cases h
    rfl
  | here _ _ _ => cases hpiece
  | up _ _ _ => cases hpiece
  | @name _ _ _ _ name _ _ _ _ _ _ => exact absurd hpiece name.isName.1
  | @link _ _ _ _ name _ _ _ _ _ => exact absurd hpiece name.isName.1

/-! ## Whole paths -/

theorem refusal?_eq_none_iff {path : Bytes} :
    refusal? path = none ↔ 0 ∉ path ∧ path ≠ [] ∧ Files.isTooLong path = false := by
  unfold refusal?
  by_cases hnul : path.any (· == 0)
  · have hmem : 0 ∈ path := by simpa using hnul
    simp [hmem]
  · have hmem : 0 ∉ path := by simpa using hnul
    by_cases hempty : path = []
    · simp [hempty]
    · simp [hmem, hempty]

theorem spot_eq_ok_iff {path : Bytes} :
    fs.spot created path = .ok spot ↔ refusal? path = none ∧
      Leads fs created maxLinks (origin path fs.workDir) (Files.pieces path) spot := by
  unfold FileSystem.spot
  cases refusal? path with
  | none => simp [walk_eq_ok_iff]
  | some cause => simp

theorem resolve_eq_ok_iff {path : Bytes} :
    fs.resolve path = .ok place ↔ refusal? path = none ∧
      Leads fs false maxLinks (origin path fs.workDir) (Files.pieces path) (.taken place) := by
  unfold resolve
  rw [bind_eq_ok_iff, ← spot_eq_ok_iff]
  constructor
  · rintro ⟨found, hfound, h⟩
    cases found with
    | taken p =>
      cases h
      exact hfound
    | free dir name => cases h
  · exact fun h => ⟨_, h, rfl⟩

theorem find?_eq_some_iff {path : Bytes} {e : FileEntry} :
    fs.find? path = some e ↔
      ∃ place, fs.resolve path = .ok place ∧ fs.root.get? place = some e := by
  unfold find?
  cases fs.resolve path with
  | ok place => simp
  | error cause => simp

theorem isDirectory_iff {path : Bytes} :
    fs.isDirectory path = true ↔ ∃ refusals entries,
      fs.find? path = some (.directory refusals entries) := by
  unfold isDirectory
  cases fs.find? path with
  | none => simp
  | some e => cases e <;> simp

theorem isFile_iff {path : Bytes} :
    fs.isFile path = true ↔ ∃ refusals content, fs.find? path = some (.file refusals content) := by
  unfold isFile
  cases fs.find? path with
  | none => simp
  | some e => cases e <;> simp

theorem refusal?_join_eq_none_iff {dir : Bytes} (hdir : dir ≠ []) :
    refusal? (Files.join dir name.bytes) = none ↔
      refusal? dir = none ∧ Files.isTooLong (Files.join dir name.bytes) = false := by
  have hnul : 0 ∉ Files.join dir name.bytes ↔ 0 ∉ dir := by
    unfold Files.join
    rw [name.isName.isRooted_eq, if_neg Bool.false_ne_true]
    split <;> simp [name.noNul, Bytes.slash]
  have hlonger := Files.length_join dir name
  rw [refusal?_eq_none_iff, refusal?_eq_none_iff, hnul]
  constructor
  · rintro ⟨hdirNul, -, hshort⟩
    refine ⟨⟨hdirNul, hdir, ?_⟩, hshort⟩
    unfold Files.isTooLong at hshort ⊢
    have hle := of_decide_eq_false hshort
    exact decide_eq_false (by omega)
  · rintro ⟨⟨hdirNul, -, -⟩, hshort⟩
    exact ⟨hdirNul, Files.join_ne_nil hdir name.isName, hshort⟩

/-! ## Changes that keep paths -/

/-- What is in `fs` is in `fs'` too, up to what files hold and what else is in directories. -/
def Keeps (fs fs' : FileSystem) : Prop :=
  ∀ place e, fs.root.get? place = some e →
    ∃ e', fs'.root.get? place = some e' ∧ (e'.bare = e.bare ∨ (e.IsFile ∧ e'.IsFile))

namespace Keeps

theorem refl (fs : FileSystem) : fs.Keeps fs :=
  fun _ e he => ⟨e, he, .inl rfl⟩

variable {fs' : FileSystem} (h : fs.Keeps fs')

include h

theorem directory {refusals : DirectoryRefusals} {entries : List (Name × FileEntry)}
    (hget : fs.root.get? place = some (.directory refusals entries)) :
    ∃ entries', fs'.root.get? place = some (.directory refusals entries') := by
  obtain ⟨e', he', hbare | ⟨hfile, -⟩⟩ := h place _ hget
  · cases e' with
    | directory r es =>
      cases hbare
      exact ⟨es, he'⟩
    | file r content => cases hbare
    | link target => cases hbare
    | special file => cases hbare
  · cases hfile

theorem passable (hpassable : fs.Passable place) : fs'.Passable place := by
  obtain ⟨refusals, entries, hget, hpassing⟩ := hpassable
  obtain ⟨entries', hget'⟩ := h.directory hget
  exact ⟨refusals, entries', hget', hpassing⟩

theorem entry {e : FileEntry} (hentry : fs.root.get? place = some e)
    (hnone : ∀ target, e ≠ .link target) :
    ∃ e', fs'.root.get? place = some e' ∧ ∀ target, e' ≠ .link target := by
  obtain ⟨e', he', hbare | ⟨-, hfile⟩⟩ := h place e hentry
  · refine ⟨e', he', ?_⟩
    rintro target rfl
    cases e with
    | link t => exact hnone t rfl
    | file r content => cases hbare
    | directory r es => cases hbare
    | special file => cases hbare
  · refine ⟨e', he', ?_⟩
    rintro target rfl
    cases hfile

theorem link {target : Bytes} (hlink : fs.root.get? place = some (.link target)) :
    fs'.root.get? place = some (.link target) := by
  obtain ⟨e', he', hbare | ⟨hfile, -⟩⟩ := h place _ hlink
  · cases e' with
    | link t =>
      cases hbare
      exact he'
    | file r content => cases hbare
    | directory r es => cases hbare
    | special file => cases hbare
  · cases hfile

/-- A path leads where it led. What was free for it may be taken now. -/
theorem leads {pieces : List Bytes} (hleads : Leads fs created links place pieces spot)
    (hfree : ∀ dir name, spot = .free dir name →
      ∃ e, fs'.root.get? (dir ++ [name]) = some e ∧ ∀ target, e ≠ .link target) :
    Leads fs' false links place pieces (.taken spot.place) := by
  induction hleads with
  | done => exact .done
  | slash hget _ ih =>
    obtain ⟨entries', hget'⟩ := h.directory hget
    exact .slash hget' (ih hfree)
  | here hpassable _ _ ih => exact .here (h.passable hpassable) rfl (ih hfree)
  | up hpassable _ _ ih => exact .up (h.passable hpassable) rfl (ih hfree)
  | name hpassable _ hentry hnone _ ih =>
    obtain ⟨e', hentry', hnone'⟩ := h.entry hentry hnone
    exact .name (h.passable hpassable) rfl hentry' hnone' (ih hfree)
  | link hpassable _ hlink _ ih => exact .link (h.passable hpassable) rfl (h.link hlink) (ih hfree)
  | free hpassable _ =>
    obtain ⟨e, he, hnone⟩ := hfree _ _ rfl
    exact .name (h.passable hpassable) rfl he hnone .done

theorem resolve_eq {path : Bytes} (hworkDir : fs'.workDir = fs.workDir)
    (hpath : fs.spot created path = .ok spot)
    (hfree : ∀ dir name, spot = .free dir name →
      ∃ e, fs'.root.get? (dir ++ [name]) = some e ∧ ∀ target, e ≠ .link target) :
    fs'.resolve path = .ok spot.place := by
  obtain ⟨hrefusal, hleads⟩ := spot_eq_ok_iff.1 hpath
  rw [resolve_eq_ok_iff, hworkDir]
  exact ⟨hrefusal, h.leads hleads hfree⟩

end Keeps

/-! ## File systems without links -/

section NoLinks

variable (hlinks : fs.root.NoLinks)

include hlinks

theorem leads_append_iff {pieces more : List Bytes} {goal : List Name} :
    Leads fs false links place (pieces ++ more) (.taken goal) ↔
      ∃ middle, Leads fs false links place pieces (.taken middle) ∧
        Leads fs false links middle more (.taken goal) := by
  induction pieces generalizing place with
  | nil =>
    constructor
    · exact fun h => ⟨place, .done, h⟩
    · rintro ⟨middle, hmiddle, h⟩
      cases hmiddle
      exact h
  | cons piece rest ih =>
    rw [List.cons_append]
    generalize rest ++ more = all at ih
    constructor
    · intro h
      cases h with
      | slash hget h =>
        obtain ⟨middle, hmiddle, h⟩ := ih.1 h
        exact ⟨middle, .slash hget hmiddle, h⟩
      | here hpassable _ h =>
        obtain ⟨middle, hmiddle, h⟩ := ih.1 h
        exact ⟨middle, .here hpassable rfl hmiddle, h⟩
      | up hpassable _ h =>
        obtain ⟨middle, hmiddle, h⟩ := ih.1 h
        exact ⟨middle, .up hpassable rfl hmiddle, h⟩
      | name hpassable _ hentry hnone h =>
        obtain ⟨middle, hmiddle, h⟩ := ih.1 h
        exact ⟨middle, .name hpassable rfl hentry hnone hmiddle, h⟩
      | link _ _ hlink _ => exact absurd hlink (hlinks _ _)
    · rintro ⟨middle, hmiddle, h⟩
      cases hmiddle with
      | slash hget hmiddle => exact .slash hget (ih.2 ⟨middle, hmiddle, h⟩)
      | here hpassable _ hmiddle => exact .here hpassable rfl (ih.2 ⟨middle, hmiddle, h⟩)
      | up hpassable _ hmiddle => exact .up hpassable rfl (ih.2 ⟨middle, hmiddle, h⟩)
      | name hpassable _ hentry hnone hmiddle =>
        exact .name hpassable rfl hentry hnone (ih.2 ⟨middle, hmiddle, h⟩)
      | link _ _ hlink _ => exact absurd hlink (hlinks _ _)

/-- A name leads one further down. -/
theorem leads_name_iff {goal : List Name} {bytes : Bytes} (hbytes : Files.IsName bytes) :
    Leads fs false links place [bytes] (.taken goal) ↔ fs.Passable place ∧
      ∃ name e, name.bytes = bytes ∧ goal = place ++ [name] ∧ fs.root.get? goal = some e := by
  obtain ⟨hempty, hhere, hup, -⟩ := hbytes
  constructor
  · intro h
    cases h with
    | slash _ _ => exact absurd rfl hempty
    | here _ _ _ => exact absurd rfl hhere
    | up _ _ _ => exact absurd rfl hup
    | @name _ _ _ _ name e hpassable _ hentry _ h =>
      cases h
      exact ⟨hpassable, name, e, rfl, rfl, hentry⟩
    | link _ _ hlink _ => exact absurd hlink (hlinks _ _)
  · rintro ⟨hpassable, name, e, rfl, rfl, hentry⟩
    exact .name hpassable rfl hentry (fun target heq => hlinks _ target (heq ▸ hentry)) .done

/-- Names lead down one after the other. -/
theorem eq_of_leads_names {names : List Bytes} (hnames : ∀ n ∈ names, Files.IsName n)
    {goal : List Name} (h : Leads fs false links place names (.taken goal)) :
    goal.map Name.bytes = place.map Name.bytes ++ names := by
  induction names using List.reverseRecOn generalizing goal with
  | nil =>
    cases h
    simp
  | append_singleton names bytes ih =>
    rw [List.forall_mem_append, List.forall_mem_singleton] at hnames
    obtain ⟨middle, hmiddle, hlast⟩ := (leads_append_iff hlinks).1 h
    obtain ⟨-, name, e, rfl, rfl, -⟩ := (leads_name_iff hlinks hnames.2).1 hlast
    rw [List.map_append, ih hnames.1 hmiddle, List.append_assoc]
    rfl

/-- **A name behind a path** leads one further down from where the path leads. -/
theorem resolve_join_iff {dir : Bytes} (hdir : dir ≠ []) {goal : List Name} :
    fs.resolve (Files.join dir name.bytes) = .ok goal ↔
      Files.isTooLong (Files.join dir name.bytes) = false ∧
      ∃ base e, fs.resolve dir = .ok base ∧ fs.Passable base ∧ goal = base ++ [name] ∧
        fs.root.get? goal = some e := by
  have horigin : origin (Files.join dir name.bytes) fs.workDir = origin dir fs.workDir := by
    unfold origin
    rw [Files.isRooted_join hdir name.isName]
  have hlast {middle : List Name} :
      Leads fs false maxLinks middle [name.bytes] (.taken goal) ↔ fs.Passable middle ∧
        ∃ e, goal = middle ++ [name] ∧ fs.root.get? goal = some e := by
    rw [leads_name_iff hlinks name.isName]
    refine and_congr_right fun _ => ⟨?_, fun ⟨e, hgoal, he⟩ => ⟨name, e, rfl, hgoal, he⟩⟩
    rintro ⟨other, e, hbytes, hgoal, he⟩
    obtain rfl := Files.Name.ext hbytes
    exact ⟨e, hgoal, he⟩
  rw [resolve_eq_ok_iff, refusal?_join_eq_none_iff hdir, horigin]
  rcases Files.pieces_join_cases hdir name.isName with ⟨front, -, hpieces, hjoined⟩ | hjoined
  · rw [hjoined, leads_append_iff hlinks]
    constructor
    · rintro ⟨⟨hrefusal, hshort⟩, middle, hmiddle, hname⟩
      obtain ⟨hpassable, e, hgoal, he⟩ := hlast.1 hname
      -- The slash behind `dir` asks for a directory, which there is, for the name leads on from it.
      obtain ⟨refusals, entries, hget, -⟩ := id hpassable
      refine ⟨hshort, middle, e, resolve_eq_ok_iff.2 ⟨hrefusal, ?_⟩, hpassable, hgoal, he⟩
      rw [hpieces, leads_append_iff hlinks]
      exact ⟨middle, hmiddle, .slash hget .done⟩
    · rintro ⟨hshort, base, e, hbase, hpassable, hgoal, he⟩
      obtain ⟨hrefusal, hleads⟩ := resolve_eq_ok_iff.1 hbase
      rw [hpieces, leads_append_iff hlinks] at hleads
      obtain ⟨middle, hmiddle, hslash⟩ := hleads
      obtain rfl := eq_of_leads_slash rfl hslash
      exact ⟨⟨hrefusal, hshort⟩, base, hmiddle, hlast.2 ⟨hpassable, e, hgoal, he⟩⟩
  · rw [hjoined, leads_append_iff hlinks]
    constructor
    · rintro ⟨⟨hrefusal, hshort⟩, middle, hmiddle, hname⟩
      obtain ⟨hpassable, e, hgoal, he⟩ := hlast.1 hname
      exact ⟨hshort, middle, e, resolve_eq_ok_iff.2 ⟨hrefusal, hmiddle⟩, hpassable, hgoal, he⟩
    · rintro ⟨hshort, base, e, hbase, hpassable, hgoal, he⟩
      obtain ⟨hrefusal, hmiddle⟩ := resolve_eq_ok_iff.1 hbase
      exact ⟨⟨hrefusal, hshort⟩, base, hmiddle, hlast.2 ⟨hpassable, e, hgoal, he⟩⟩

end NoLinks

end FileSystem

end Calligraph
