import UsingStyle.Run
import UsingStyle.Proofs.Inspection.Files

/-! # The stages of a run

A run that its command line asks to inspect, under valid settings, goes through stages: it counts
its workers, takes its sort key, selects files, reads them all and prints. Each stage can end it.
The lemmas below say for each stage when that happens and what the run then leaves behind; log lines
and warnings stand before it on the error stream. The codecs that decide which encodings are valid,
and that decode the files, are any.
-/

namespace UsingStyle

namespace CommandLine

/-- The value that was given, or else the given default. A value that was dropped counts as not
given. -/
def Given.getD {α : Type} : Given α → α → α
  | .value a, _ => a
  | .nothing, absent | .noValue, absent => absent

end CommandLine

/-- A run that comes to inspect: the command line asks for it and the settings are valid. -/
structure InspectionRun (codecs : Codecs) where
  world : World
  arguments : List String
  request : CommandLine.Request
  file : Option EnvFile
  settings : Settings
  asks : CommandLine.parse arguments = .ok (.run request)
  reads : world.settingsFile? = .ok file
  valid : world.settings file codecs = .ok settings

namespace InspectionRun

variable {codecs : Codecs}

/-- The effective number of workers: that of the command line if given, else that of the
settings. -/
def workers (i : InspectionRun codecs) : Int :=
  i.request.workers.getD i.settings.workers

/-- There is somebody to work. -/
def Staffed (i : InspectionRun codecs) : Prop :=
  1 ≤ i.workers

/-- The effective sort key: that of the command line if given, else that of the settings. -/
def key (i : InspectionRun codecs) : SortKey :=
  i.request.sortKey.getD i.settings.sortKey

/-- The selection of files. -/
def selection (i : InspectionRun codecs) : FileTree.Selection :=
  i.world.tree.select i.world.root (i.request.inputs.getD []) i.request.excludes

/-- The text of a file. -/
def text (i : InspectionRun codecs) (p : Path) : Except FileError String :=
  i.world.tree.readText codecs i.settings.encoding p

/-- The report of a file. -/
def report (i : InspectionRun codecs) (p : Path) : Except FileError Report :=
  reportFile codecs i.world.tree i.key i.settings.encoding p

/-- Some pattern asks to list a directory whose name holds the null character. -/
def ListsNull (i : InspectionRun codecs) : Prop :=
  (i.request.inputs.getD [] ++ i.request.excludes).any (Pattern.listsNull i.world.root) = true

/-- No flag has lost its value, and all patterns can be looked up. -/
structure Orderly (i : InspectionRun codecs) : Prop where
  workers : i.request.workers ≠ .noValue
  sortKey : i.request.sortKey ≠ .noValue
  patterns : ¬ i.ListsNull

/-- All selected files can be read and decoded. -/
def Readable (i : InspectionRun codecs) : Prop :=
  ∀ p ∈ i.selection.paths, ∃ text, i.text p = .ok text

/-- The run ends with an exit code. -/
def Ends (i : InspectionRun codecs) : Prop :=
  ∃ code output, run i.world i.arguments codecs = .exit code output

/-- The run ends with the code and prints the reports, behind lines on the error stream. -/
def EndsWith (i : InspectionRun codecs) (code : Nat) (reports : List Report) : Prop :=
  ∃ lines : Output, lines.out = "" ∧
    run i.world i.arguments codecs = .exit code (lines.append (Run.render i.request reports))

end InspectionRun

/-! ## Log lines -/

namespace Output

theorem out_append (a b : Output) : (a.append b).out = a.out ++ b.out := rfl

theorem err_append (a b : Output) : (a.append b).err = a.err ++ b.err := rfl

theorem append_assoc (a b c : Output) : (a.append b).append c = a.append (b.append c) := by
  simp [append, String.append_assoc]

theorem err_append_ne_empty (a : Output) {b : Output} (h : b.err ≠ "") : (a.append b).err ≠ "" := by
  rw [err_append]
  simp [h]

theorem out_foldr_append {α : Type} {f : α → Output} (h : ∀ a, (f a).out = "") (l : List α) :
    (l.foldr (fun a rest => (f a).append rest) .empty).out = "" := by
  induction l with
  | nil => rfl
  | cons a l ih => rw [List.foldr_cons, out_append, h, ih]; rfl

end Output

namespace Run

theorem out_log (level line : LogLevel) (logger : Logger) (message : String) :
    (log level line logger message).out = "" := by
  unfold log
  split <;> rfl

theorem out_warnings (file : Option EnvFile) : (warnings file).out = "" := by
  cases file with
  | none => rfl
  | some f => exact Output.out_foldr_append (fun _ => rfl) f.unreadable

/-! ## Exit codes -/

theorem exitCode_eq_zero_iff {reports : List Report} :
    exitCode reports = 0 ↔ ∀ r ∈ reports, r.passed = true := by
  unfold exitCode
  split
  · rename_i h
    simpa using h
  · rename_i h
    simpa using h

theorem exitCode_eq_one_iff {reports : List Report} :
    exitCode reports = 1 ↔ ¬ ∀ r ∈ reports, r.passed = true := by
  rw [← exitCode_eq_zero_iff]
  unfold exitCode
  split <;> simp

theorem exitCode_eq_zero_or_one (reports : List Report) :
    exitCode reports = 0 ∨ exitCode reports = 1 := by
  unfold exitCode
  split
  · exact .inl rfl
  · exact .inr rfl

/-! ## Reading the files -/

/-- The log lines of an inspection. -/
def logLines (s : Settings) (workers : Workers) (key : SortKey) (selection : FileTree.Selection)
    (inspections : List FileInspection) : Output :=
  (log s.logLevel .debug .scan (selectionMessage selection)).append <|
  (log s.logLevel .info .cli (startMessage selection.paths.length key workers)).append <|
  inspections.foldr (fun i rest => (log s.logLevel .debug .scan (fileMessage i)).append rest) .empty

theorem out_logLines (s : Settings) (workers : Workers) (key : SortKey)
    (selection : FileTree.Selection) (inspections : List FileInspection) :
    (logLines s workers key selection inspections).out = "" := by
  have hfiles := Output.out_foldr_append
    (fun i : FileInspection => out_log s.logLevel .debug .scan (fileMessage i)) inspections
  rw [logLines, Output.out_append, Output.out_append, out_log, out_log, hfiles]
  rfl

section Selected

variable {codecs : Codecs} {w : World} (r : CommandLine.Request) {s : Settings} (workers : Workers)
  {key : SortKey} {selection : FileTree.Selection}

/-- When all files can be read, their reports decide the exit code and are printed. -/
theorem inspectSelected_of_reports {reports : List Report}
    (h : selection.paths.mapM (reportFile codecs w.tree key s.encoding) = .ok reports) :
    ∃ lines : Output, lines.out = "" ∧
      inspectSelected codecs w r s workers key selection =
        .exit (exitCode reports) (lines.append (render r reports)) := by
  have helim := (mapM_eq_untilError (inspectFile codecs w.tree key s.encoding) FileInspection.report
    selection.paths).symm.trans h
  unfold inspectSelected
  rw [inspectFiles_eq]
  rcases hfound : untilError (selection.paths.map (inspectFile codecs w.tree key s.encoding)) with
    ⟨is, _ | e⟩
  · rw [hfound] at helim
    cases helim
    exact ⟨logLines s workers key selection is, out_logLines _ _ _ _ _, rfl⟩
  · rw [hfound] at helim
    contradiction

/-- The first file that cannot be read ends the run, with a message if the error is one of
reading. -/
theorem inspectSelected_of_error {e : FileError}
    (h : (untilError (selection.paths.map (inspectFile codecs w.tree key s.encoding))).2 = some e) :
    (isReadError e = true → ∃ output : Output, output.err ≠ "" ∧
        inspectSelected codecs w r s workers key selection = .exit 1 output) ∧
      (isReadError e = false →
        inspectSelected codecs w r s workers key selection = .abort (.file e)) := by
  unfold inspectSelected
  rw [inspectFiles_eq]
  rcases hfound : untilError (selection.paths.map (inspectFile codecs w.tree key s.encoding)) with
    ⟨is, _ | e'⟩
  · rw [hfound] at h
    contradiction
  · rw [hfound] at h
    cases h
    constructor
    · intro hread
      have hline : (Output.errLine (failureMessage e)).err ≠ "" := by simp [Output.errLine]
      refine ⟨(logLines s workers key selection is).append
        ((log s.logLevel .error .cli (failureMessage e)).append
          (.errLine (failureMessage e))), ?_, ?_⟩
      · exact Output.err_append_ne_empty _ (Output.err_append_ne_empty _ hline)
      · dsimp only
        rw [if_pos hread]
        rfl
    · intro hread
      dsimp only
      rw [if_neg (by simp [hread])]

end Selected

end Run

/-! ## Flags and settings -/

theorem Run.given_of_ne {α : Type} (error : Abort) (absent : α) {g : CommandLine.Given α}
    (h : g ≠ .noValue) : Run.given error absent g = .ok (g.getD absent) := by
  cases g with
  | nothing => rfl
  | noValue => contradiction
  | value a => rfl

theorem Workers.ofInt_of_pos {n : Int} (h : 1 ≤ n) : ∃ workers, Workers.ofInt n = .ok workers :=
  ⟨_, dif_pos h⟩

theorem Workers.ofInt_of_not_pos {n : Int} (h : ¬ 1 ≤ n) : Workers.ofInt n = .error ⟨n⟩ :=
  dif_neg h

namespace InspectionRun

variable {codecs : Codecs} {i : InspectionRun codecs}

theorem run_of_error {cause : Abort}
    (h : Run.inspectWith codecs i.world i.request i.settings = .error cause) :
    run i.world i.arguments codecs = .abort cause := by
  simp only [run, i.asks, Run.inspection, i.reads, i.valid, h]
  rfl

theorem run_of_ok {outcome : Outcome}
    (h : Run.inspectWith codecs i.world i.request i.settings = .ok outcome) :
    run i.world i.arguments codecs = outcome.after (Run.warnings i.file) := by
  simp only [run, i.asks, Run.inspection, i.reads, i.valid, h]

theorem run_of_workers_dropped (h : i.request.workers = .noValue) :
    run i.world i.arguments codecs = .abort .workersWithoutValue := by
  apply run_of_error
  rw [Run.inspectWith, h]
  rfl

/-- Behind the flag for the workers, their number decides. -/
theorem inspectWith_of_workers (h : i.request.workers ≠ .noValue) :
    Run.inspectWith codecs i.world i.request i.settings =
      match Workers.ofInt i.workers with
      | .error _ => .ok (.exit 1 ⟨"", CommandLine.errorLine "--workers must be at least 1"⟩)
      | .ok workers =>
        (Run.given .sortKeyWithoutValue i.settings.sortKey i.request.sortKey).bind fun key =>
          match i.world.tree.select? i.world.root (i.request.inputs.getD [])
            i.request.excludes with
          | none => .error .nullInPattern
          | some selection =>
            .ok <|
              Run.inspectSelected codecs i.world i.request i.settings workers key selection := by
  rw [Run.inspectWith, Run.given_of_ne .workersWithoutValue i.settings.workers h]
  rfl

/-- With workers, everything hangs on the sort key and the patterns. -/
theorem inspectWith_of_staffed (hworkers : i.request.workers ≠ .noValue) (hstaffed : i.Staffed) :
    ∃ workers : Workers, Run.inspectWith codecs i.world i.request i.settings =
      (Run.given .sortKeyWithoutValue i.settings.sortKey i.request.sortKey).bind fun key =>
        match i.world.tree.select? i.world.root (i.request.inputs.getD []) i.request.excludes with
        | none => .error .nullInPattern
        | some selection =>
          .ok (Run.inspectSelected codecs i.world i.request i.settings workers key selection) := by
  obtain ⟨workers, hof⟩ := Workers.ofInt_of_pos hstaffed
  refine ⟨workers, ?_⟩
  rw [inspectWith_of_workers hworkers, hof]

theorem run_of_not_staffed (hworkers : i.request.workers ≠ .noValue) (hstaffed : ¬ i.Staffed) :
    ∃ output : Output, output.err ≠ "" ∧ run i.world i.arguments codecs = .exit 1 output := by
  have hwith := inspectWith_of_workers hworkers
  rw [Workers.ofInt_of_not_pos hstaffed] at hwith
  refine ⟨_, ?_, run_of_ok hwith⟩
  exact Output.err_append_ne_empty _ (by decide)

/-- A run that has workers but is not orderly breaks off. -/
theorem run_of_not_orderly (hstaffed : i.Staffed) (h : ¬ i.Orderly) :
    ∃ cause, run i.world i.arguments codecs = .abort cause := by
  by_cases hworkers : i.request.workers = .noValue
  · exact ⟨_, run_of_workers_dropped hworkers⟩
  obtain ⟨workers, hwith⟩ := inspectWith_of_staffed hworkers hstaffed
  by_cases hkey : i.request.sortKey = .noValue
  · rw [hkey] at hwith
    exact ⟨_, run_of_error hwith⟩
  have hnull : i.ListsNull := by
    by_contra hpatterns
    exact h ⟨hworkers, hkey, hpatterns⟩
  have hselect : i.world.tree.select? i.world.root (i.request.inputs.getD []) i.request.excludes =
      none := if_pos hnull
  rw [Run.given_of_ne _ _ hkey, hselect] at hwith
  exact ⟨_, run_of_error hwith⟩

/-- An orderly run with workers comes to its files. -/
theorem run_of_orderly (hstaffed : i.Staffed) (h : i.Orderly) :
    ∃ workers : Workers, run i.world i.arguments codecs =
      (Run.inspectSelected codecs i.world i.request i.settings workers i.key i.selection).after
        (Run.warnings i.file) := by
  obtain ⟨workers, hwith⟩ := inspectWith_of_staffed h.workers hstaffed
  have hselect : i.world.tree.select? i.world.root (i.request.inputs.getD []) i.request.excludes =
      some i.selection := if_neg h.patterns
  rw [Run.given_of_ne _ _ h.sortKey, hselect] at hwith
  exact ⟨workers, run_of_ok hwith⟩

theorem Ends.orderly (h : i.Ends) (hstaffed : i.Staffed) : i.Orderly := by
  by_contra horderly
  obtain ⟨cause, habort⟩ := run_of_not_orderly hstaffed horderly
  obtain ⟨code, output, hexit⟩ := h
  rw [habort] at hexit
  contradiction

/-! ## All files can be read -/

/-- Either all files have reports, or some file is the first that fails. -/
theorem reports_or_first_error (i : InspectionRun codecs) :
    (∃ reports, i.selection.paths.mapM i.report = .ok reports) ∨
      ∃ e, (untilError (i.selection.paths.map
        (inspectFile codecs i.world.tree i.key i.settings.encoding))).2 = some e := by
  rw [show i.report = fun p => (inspectFile codecs i.world.tree i.key i.settings.encoding p).map
    FileInspection.report from rfl, mapM_eq_untilError]
  cases (untilError (i.selection.paths.map
      (inspectFile codecs i.world.tree i.key i.settings.encoding))).2 with
  | none => exact .inl ⟨_, rfl⟩
  | some e => exact .inr ⟨e, rfl⟩

theorem exists_reports (h : i.Readable) :
    ∃ reports, i.selection.paths.mapM i.report = .ok reports := by
  rcases i.reports_or_first_error with hreports | ⟨e, herror⟩
  · exact hreports
  · obtain ⟨before, p, after, hpaths, _, hp⟩ := (firstError_eq_some_iff i.key).1 herror
    obtain ⟨text, htext⟩ := h p (by rw [hpaths]; simp)
    rw [InspectionRun.text, hp] at htext
    contradiction

theorem readable_of_reports {reports : List Report}
    (h : i.selection.paths.mapM i.report = .ok reports) : i.Readable := by
  rw [mapM_eq_ok_iff] at h
  unfold Readable
  generalize i.selection.paths = paths at h ⊢
  induction h with
  | nil => simp
  | cons hp _ ih =>
      obtain ⟨_, text, htext, _⟩ := reportFile_eq_ok_iff.1 hp
      exact List.forall_mem_cons.2 ⟨⟨text, htext⟩, ih⟩

theorem endsWith_of_reports (hstaffed : i.Staffed) (horderly : i.Orderly) {reports : List Report}
    (h : i.selection.paths.mapM i.report = .ok reports) :
    i.EndsWith (Run.exitCode reports) reports := by
  obtain ⟨workers, hrun⟩ := run_of_orderly hstaffed horderly
  obtain ⟨lines, hout, hselected⟩ := Run.inspectSelected_of_reports i.request workers h
  refine ⟨(Run.warnings i.file).append lines, ?_, ?_⟩
  · rw [Output.out_append, Run.out_warnings, hout]
    rfl
  · rw [hrun, hselected, Output.append_assoc]
    rfl

end InspectionRun
end UsingStyle
