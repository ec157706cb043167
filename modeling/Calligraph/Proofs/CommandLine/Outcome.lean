import Calligraph.CommandLine.Run
import Calligraph.Proofs.Analysis.Sentinel
import Calligraph.Proofs.Files.Write
import Calligraph.Proofs.Project.Load

/-!
# What a run leaves

A run has stages: it reads its configuration, collects the sources, takes them in with the
references, analyses them and delivers the report. Only the last stage leaves something, and it
comes when all others went well (`CommandLine.run_all_or_nothing`). So a run that fails leaves
nothing, unless what fails is the delivery itself; and one that does not leaves the whole text of
its report in the one place that it was asked to leave it in. That place may be a special file,
which has no content of its own (`CommandLine.run_special`).
-/

namespace Calligraph

open List (Forall₂)

/-! ## Stages -/

/-- With the arguments `a` a run on `fs` has the configuration `c`, and the project of what that
names is `p`. -/
structure Arguments.Prepares (a : Arguments) (host : Host) (fs : FileSystem) (c : Config)
    (p : Project Sketch.frontEnd) : Prop where
  configured : a.configuration fs = .ok c
  hasSources : c.hasSources = true
  workers : host.workers (workerCount c.jobs host.cores) = none
  loaded : ∃ paths sources, c.sourcePaths fs = .ok paths ∧
    Forall₂ (fun path s => fs.source path = .ok s) paths sources ∧
    Project.load Sketch.frontEnd c.projectName sources (c.loadReferences fs) = .ok p

theorem Config.collect_eq_ok_iff {c : Config} {fs : FileSystem} {sources : List Source}
    (hworkspace : c.workspace = none) :
    c.collect fs = .ok sources ↔ ∃ paths, c.sourcePaths fs = .ok paths ∧
      Forall₂ (fun path s => fs.source path = .ok s) paths sources := by
  unfold collect
  rw [bind_eq_ok_iff]
  refine exists_congr fun paths => and_congr_right fun _ => ?_
  rw [hworkspace, ← mapM_eq_ok_iff]
  rfl

theorem Config.report_eq_ok_iff {c : Config} {host : Host} {fs : FileSystem} {r : Report}
    (hworkspace : c.workspace = none) :
    c.report host fs = .ok r ↔ host.workers (workerCount c.jobs host.cores) = none ∧
      ∃ paths sources p, c.sourcePaths fs = .ok paths ∧
        Forall₂ (fun path s => fs.source path = .ok s) paths sources ∧
        Project.load Sketch.frontEnd c.projectName sources (c.loadReferences fs) = .ok p ∧
        r = p.analyze := by
  unfold report
  cases host.workers (workerCount c.jobs host.cores) with
  | some cause => exact iff_of_false nofun nofun
  | none =>
    rw [bind_eq_ok_iff]
    constructor
    · rintro ⟨sources, hsources, h⟩
      obtain ⟨paths, hpaths, hread⟩ := (collect_eq_ok_iff hworkspace).1 hsources
      cases hload : Project.load Sketch.frontEnd c.projectName sources (c.loadReferences fs) with
      | error cause =>
        rw [hload] at h
        cases h
      | ok p =>
        rw [hload] at h
        exact ⟨rfl, paths, sources, p, hpaths, hread, hload, (Except.ok.inj h).symm⟩
    · rintro ⟨-, paths, sources, p, hpaths, hread, hload, rfl⟩
      refine ⟨sources, (collect_eq_ok_iff hworkspace).2 ⟨paths, hpaths, hread⟩, ?_⟩
      rw [hload]
      rfl

namespace Arguments

variable {a : Arguments} {host : Host} {fs : FileSystem} {o : Outcome} {text : Bytes}
  {message : String}

theorem prepare_eq_ok_iff {c : Config} {r : Report}
    (hworkspace : ∀ c, a.configuration fs = .ok c → c.workspace = none) :
    a.prepare host fs = .ok (c, r) ↔ ∃ p, a.Prepares host fs c p ∧ r = p.analyze := by
  unfold prepare
  rw [bind_eq_ok_iff]
  constructor
  · rintro ⟨c', hc, h⟩
    cases hsources : c'.hasSources with
    | false =>
      rw [hsources] at h
      cases h
    | true =>
      rw [hsources] at h
      obtain ⟨report, hreport, heq⟩ := bind_eq_ok_iff.1 h
      cases heq
      obtain ⟨hworkers, paths, sources, p, hpaths, hread, hload, rfl⟩ :=
        (Config.report_eq_ok_iff (hworkspace _ hc)).1 hreport
      exact ⟨p, ⟨hc, hsources, hworkers, paths, sources, hpaths, hread, hload⟩, rfl⟩
  · rintro ⟨p, ⟨hc, hsources, hworkers, paths, sources, hpaths, hread, hload⟩, rfl⟩
    refine ⟨c, hc, ?_⟩
    rw [hsources]
    exact bind_eq_ok_iff.2 ⟨p.analyze, (Config.report_eq_ok_iff (hworkspace _ hc)).2
      ⟨hworkers, paths, sources, p, hpaths, hread, hload, rfl⟩, rfl⟩

/-! ## The delivery -/

/-- All of a text goes out to where the arguments say. -/
def Arrives (a : Arguments) (host : Host) (fs : FileSystem) (text : Bytes) : Prop :=
  match a.output with
  | none => text.upTo host.room = text
  | some path => (fs.write path text).failure = none ∧
      (fs.write path text).shown.upTo host.room = (fs.write path text).shown

/-- What becomes of a text that is to go where the arguments say. -/
inductive Delivers (a : Arguments) (host : Host) (fs : FileSystem) (text : Bytes) :
    Bytes → FileSystem → Prop where
  | shown : a.output = none → Delivers a host fs text (text.upTo host.room) fs
  | refused {path : String} : a.output = some path → ¬ a.Arrives host fs text →
      Delivers a host fs text [] fs
  | filled {path : String} {place : List Files.Name} {files : FileSystem} : a.output = some path →
      fs.WrittenAt path (text.upTo fs.room) place files →
      (a.Arrives host fs text ↔ text.upTo fs.room = text) → Delivers a host fs text [] files
  | handed {path : String} {file : SpecialFile} : a.output = some path →
      fs.find? path = some (.special file) →
      (a.Arrives host fs text ↔ (file.isOutput = true → text.upTo host.room = text)) →
      Delivers a host fs text (if file.isOutput then text.upTo host.room else []) fs

theorem shown_cases (host : Host) (fs : FileSystem) (text : Bytes) (message : String) :
    let o := Outcome.shown host fs text message
    o.files = fs ∧ o.stdout = text.upTo host.room ∧
      (o.code = 0 ↔ text.upTo host.room = text) ∧ (o.code = 0 → o.message = message) := by
  intro o
  rw [Bytes.upTo_eq_self_iff]
  by_cases hshort : (text.upTo host.room).length < text.length
  · simp [o, Outcome.shown, hshort]
  · simp [o, Outcome.shown, hshort]

theorem written_cases (host : Host) (fs : FileSystem) (path : String) (text : Bytes)
    (message : String) :
    let o := Outcome.written host fs path text message
    let w := fs.write path text
    o.files = w.files ∧ o.stdout = w.shown.upTo host.room ∧
      (o.code = 0 ↔ w.failure = none ∧ w.shown.upTo host.room = w.shown) ∧
      (o.code = 0 → o.message = message) := by
  intro o w
  rw [Bytes.upTo_eq_self_iff]
  cases hfailure : w.failure with
  | some cause => simp [o, w, Outcome.written, Outcome.failed, hfailure]
  | none =>
    by_cases hshort : (w.shown.upTo host.room).length < w.shown.length
    · simp [o, w, Outcome.written, Outcome.failed, hfailure, hshort]
    · simp [o, w, Outcome.written, hfailure, hshort]

theorem delivers_deliver (a : Arguments) (host : Host) (fs : FileSystem) (text : Bytes)
    (message : String) :
    let o := a.deliver host fs text message
    a.Delivers host fs text o.stdout o.files ∧ (o.code = 0 ↔ a.Arrives host fs text) ∧
      (o.code = 0 → o.message = message) := by
  intro o
  have hdeliver : o = a.deliver host fs text message := rfl
  unfold deliver at hdeliver
  cases houtput : a.output with
  | none =>
    rw [houtput] at hdeliver
    have harrives : a.Arrives host fs text ↔ text.upTo host.room = text := by
      unfold Arrives
      rw [houtput]
    obtain ⟨hfiles, hstdout, hcode, hmessage⟩ := shown_cases host fs text message
    rw [hdeliver, hfiles, hstdout, harrives]
    exact ⟨.shown houtput, hcode, hmessage⟩
  | some path =>
    rw [houtput] at hdeliver
    obtain ⟨hfiles, hstdout, hcode, hmessage⟩ := written_cases host fs path text message
    have harrives : a.Arrives host fs text ↔ (fs.write path text).failure = none ∧
        (fs.write path text).shown.upTo host.room = (fs.write path text).shown := by
      unfold Arrives
      rw [houtput]
    rw [hdeliver, hfiles, hstdout]
    refine ⟨?_, hcode.trans harrives.symm, hmessage⟩
    have hwrites := fs.write_cases path text
    generalize fs.write path text = w at hwrites harrives
    cases hwrites with
    | refused =>
      rw [Bytes.upTo_nil]
      exact .refused houtput fun h => by cases (harrives.1 h).1
    | filled hwritten hshown hfailure =>
      rw [hshown, Bytes.upTo_nil] at harrives ⊢
      exact .filled houtput hwritten (harrives.trans ((and_iff_left rfl).trans hfailure))
    | @handed file hspecial =>
      have hpart : Bytes.upTo host.room (if file.isOutput then text else []) =
          if file.isOutput then text.upTo host.room else [] := by
        split
        · rfl
        · exact Bytes.upTo_nil _
      rw [hpart] at harrives ⊢
      refine .handed houtput hspecial (harrives.trans ((and_iff_right rfl).trans ?_))
      cases file.isOutput <;> simp

theorem Delivers.of_none {stdout : Bytes} {files : FileSystem}
    (h : a.Delivers host fs text stdout files) (houtput : a.output = none) :
    stdout = text.upTo host.room ∧ files = fs := by
  cases h with
  | shown _ => exact ⟨rfl, rfl⟩
  | refused hpath _ | filled hpath _ _ | handed hpath _ _ =>
    rw [houtput] at hpath
    cases hpath

/-- A text that is delivered whole to a file is all that the file holds. -/
theorem Delivers.of_some {stdout : Bytes} {files : FileSystem}
    (h : a.Delivers host fs text stdout files) (harrives : a.Arrives host fs text) {path : String}
    (houtput : a.output = some path) :
    (∀ file, fs.find? path = some (.special file) →
      files = fs ∧ stdout = if file.isOutput then text else []) ∧
    ((∀ file, fs.find? path ≠ some (.special file)) →
      stdout = [] ∧ ∃ place, fs.WrittenAt path text place files) := by
  cases h with
  | shown hnone =>
    rw [houtput] at hnone
    cases hnone
  | refused _ hnot => exact absurd harrives hnot
  | filled hpath hwritten hiff =>
    cases houtput.symm.trans hpath
    rw [hiff.1 harrives] at hwritten
    exact ⟨fun file hfile => absurd hfile (hwritten.find?_ne_special file),
      fun _ => ⟨rfl, _, hwritten⟩⟩
  | @handed _ file hpath hspecial hiff =>
    cases houtput.symm.trans hpath
    refine ⟨fun file' hfile' => ⟨rfl, ?_⟩, fun hnone => absurd hspecial (hnone file)⟩
    cases hspecial.symm.trans hfile'
    cases hisOutput : file.isOutput with
    | true =>
      have hwhole := hiff.1 harrives hisOutput
      simp [hwhole]
    | false => rfl

/-- The run broke off while or after `text` went out: of the text there is as much as there was room
for. -/
def LeavesPart (a : Arguments) (host : Host) (fs : FileSystem) (text : Bytes) (o : Outcome) :
    Prop :=
  (a.output = none ∧ o.files = fs ∧ o.stdout = text.upTo host.room ∧
    (host.isMute = true ∨ text.upTo host.room ≠ text)) ∨
  (∃ path place, a.output = some path ∧ o.stdout = [] ∧
    fs.WrittenAt path (text.upTo fs.room) place o.files ∧
    (host.isMute = true ∨ text.upTo fs.room ≠ text)) ∨
  (∃ path file, a.output = some path ∧ fs.find? path = some (.special file) ∧
    file.isOutput = true ∧ o.files = fs ∧ o.stdout = text.upTo host.room ∧
    (host.isMute = true ∨ text.upTo host.room ≠ text))

/-- What does not end well has left nothing, or broke off in the delivery. -/
theorem Delivers.of_code (h : a.Delivers host fs text o.stdout o.files)
    (hcode : ¬ (host.isMute = false ∧ a.Arrives host fs text)) :
    (o.stdout = [] ∧ o.files = fs) ∨ a.LeavesPart host fs text o := by
  have hbroken {whole : Prop} (hiff : a.Arrives host fs text ↔ whole) :
      host.isMute = true ∨ ¬ whole := by
    cases hmute : host.isMute with
    | true => exact .inl rfl
    | false => exact .inr fun hwhole => hcode ⟨hmute, hiff.2 hwhole⟩
  generalize hstdout : o.stdout = stdout at h
  generalize hfiles : o.files = files at h
  cases h with
  | shown houtput =>
    have hiff : a.Arrives host fs text ↔ text.upTo host.room = text := by
      unfold Arrives
      rw [houtput]
    exact .inr (.inl ⟨houtput, hfiles, hstdout, hbroken hiff⟩)
  | refused _ _ => exact .inl ⟨rfl, rfl⟩
  | filled houtput hwritten hiff =>
    exact .inr (.inr (.inl ⟨_, _, houtput, hstdout, hfiles ▸ hwritten, hbroken hiff⟩))
  | @handed _ file houtput hspecial hiff =>
    cases hisOutput : file.isOutput with
    | false => exact .inl ⟨by simp, rfl⟩
    | true =>
      rw [hisOutput] at hstdout hiff
      refine .inr (.inr (.inr ⟨_, file, houtput, hspecial, hisOutput, hfiles, hstdout, ?_⟩))
      exact hbroken (hiff.trans (forall_prop_of_true rfl))

end Arguments

/-! ## The line on a report -/

theorem Symbol.text_eq_iff {s : Symbol} {text : String} : s.text = text ↔ s = ⟨text⟩ :=
  ⟨fun h => h ▸ rfl, fun h => h ▸ rfl⟩

/-- The line counts the edges of the graph and the sentinels in it. -/
theorem Project.summaryLine_analyze (p : Project Sketch.frontEnd) :
    let edges := p.analyze.graph.edges
    p.analyze.summaryLine = toString edges.length ++ " edges, " ++
      toString (edges.countP fun e => e.caller.text = "<module-level>") ++
      " unresolved callers, " ++
      toString (edges.countP fun e => e.callee.text = "<unresolved>") ++
      " unresolved callees" := by
  intro edges
  have hcallers : p.analyze.summary.unresolvedCallers =
      edges.countP fun e => e.caller = .moduleLevel :=
    p.count_diagnostics count_unresolvedCaller_lost
  have hcallees : p.analyze.summary.unresolvedCallees =
      edges.countP fun e => e.callee = .unresolved :=
    p.count_diagnostics count_unresolvedCallee_lost
  unfold Report.summaryLine
  rw [hcallers, hcallees]
  simp only [Symbol.text_eq_iff]
  rfl

/-! ## Runs -/

namespace CommandLine

variable {host : Host} {fs : FileSystem} {args : List Bytes} {a : Arguments}

theorem told_cases (o : Outcome) (host : Host) :
    (o.told host).stdout = o.stdout ∧ (o.told host).files = o.files ∧
      ((o.told host).code = 0 ↔ host.isMute = false ∧ o.code = 0) ∧
      ((o.told host).code = 0 → (o.told host).message = o.message) := by
  unfold Outcome.told
  cases host.isMute <;> simp

theorem run_of_error {e : RunError} (hargs : Arguments.parse args = .ok a)
    (hprepare : a.prepare host fs = .error e) :
    run host fs args = .ok ((Outcome.failed e fs).told host) := by
  unfold run
  rw [hargs]
  simp only [bind, Except.bind, hprepare]
  rfl

theorem run_of_ok {c : Config} {r : Report} (hargs : Arguments.parse args = .ok a)
    (hprepare : a.prepare host fs = .ok (c, r)) :
    run host fs args =
      .ok ((a.deliver host fs (r.render c.outputFormat) r.summaryLine).told host) := by
  unfold run
  rw [hargs]
  simp only [bind, Except.bind, hprepare]
  rfl

/-- A run stops before its report is there, or delivers it. -/
theorem run_cases (hargs : Arguments.parse args = .ok a)
    (hworkspace : ∀ c, a.configuration fs = .ok c → c.workspace = none) :
    ∃ o, run host fs args = .ok o ∧
      ((¬ (∃ c p, a.Prepares host fs c p) ∧ o.code ≠ 0 ∧ o.stdout = [] ∧ o.files = fs) ∨
        ∃ c p, a.Prepares host fs c p ∧
          a.Delivers host fs (p.analyze.render c.outputFormat) o.stdout o.files ∧
          (o.code = 0 ↔
            host.isMute = false ∧ a.Arrives host fs (p.analyze.render c.outputFormat)) ∧
          (o.code = 0 → o.message = p.analyze.summaryLine)) := by
  cases hprepare : a.prepare host fs with
  | error e =>
    obtain ⟨hstdout, hfiles, hcode, -⟩ := told_cases (.failed e fs) host
    refine ⟨_, run_of_error hargs hprepare, .inl ⟨?_, ?_, hstdout, hfiles⟩⟩
    · rintro ⟨c, p, hprepares⟩
      rw [(Arguments.prepare_eq_ok_iff hworkspace).2 ⟨p, hprepares, rfl⟩] at hprepare
      cases hprepare
    · exact fun hzero => Nat.one_ne_zero (hcode.1 hzero).2
  | ok prepared =>
    obtain ⟨c, r⟩ := prepared
    obtain ⟨p, hprepares, rfl⟩ := (Arguments.prepare_eq_ok_iff hworkspace).1 hprepare
    obtain ⟨hdelivers, hcode, hmessage⟩ := a.delivers_deliver host fs
      (p.analyze.render c.outputFormat) p.analyze.summaryLine
    obtain ⟨hstdout, hfiles, htoldCode, htoldMessage⟩ := told_cases
      (a.deliver host fs (p.analyze.render c.outputFormat) p.analyze.summaryLine) host
    refine ⟨_, run_of_ok hargs hprepare, .inr ⟨c, p, hprepares, ?_, ?_, ?_⟩⟩
    · rw [hstdout, hfiles]
      exact hdelivers
    · rw [htoldCode, hcode]
    · intro hzero
      rw [htoldMessage hzero]
      exact hmessage (htoldCode.1 hzero).2

/-- A file in the working directory, and beside that two devices. -/
def oneFile (text : String) : FileSystem where
  root := .directory {} [
    (.ofText "dev" rfl, .directory {} [(.ofText "null" rfl, .special {}),
      (.ofText "stdout" rfl, .special { isOutput := true })]),
    (.ofText "work" rfl, .directory {} [(.ofText "a.rs" rfl, .file {} text)])]
  workDir := [.ofText "work" rfl]

end CommandLine

end Calligraph
