import UsingStyle.Proofs.Report.Plain
import UsingStyle.Proofs.Run.Stages

/-! # The verdict of a run

When all selected files can be read, a run ends with code 0 if the text of every one of them passes
its inspection, and with code 1 otherwise. Format, verbosity, the number of workers and their turns
change neither the code nor the reports. The text is what the codecs make of the bytes, whichever
they are. The exceptions are runs that never come to their files: a value `--` of `--workers` or
`--sort-key` is dropped, and a directory whose name holds the null character cannot be listed. Such
a run breaks off instead of giving a verdict.
-/

namespace UsingStyle

/-! ## Reports and exit codes -/

theorem Report.passed_iff {key : SortKey} {text : String} {r : Report}
    (h : inspectText key text = .ok r.records) : r.passed = true ↔ r.records = [] := by
  rw [inspectText_eq] at h
  have hrecords := Except.ok.inj h
  rw [Report.passed, ← hrecords]
  cases hoffending : offending key (scan text) with
  | nil => simp
  | cons p rest =>
      -- a directive is offending only for a finding, which gives its record a message
      have hp : p ∈ offending key (scan text) := by
        rw [hoffending]
        exact List.mem_cons_self
      have hne := (List.mem_filter.1 hp).2
      cases hfindings : p.2 with
      | nil => simp [hfindings] at hne
      | cons f fs => simp [Record.ofFindings, Record.isFailed, hfindings]

namespace InspectionRun

variable {codecs : Codecs}

/-! ## Verdicts -/

/-- The texts of all selected files pass their inspection. -/
def Conforms (i : InspectionRun codecs) : Prop :=
  ∀ p ∈ i.selection.paths, ∀ text, i.text p = .ok text → inspectText i.key text = .ok []

/-- The runs see the same files and inspect them by the same rules. Format, verbosity and workers
may differ. -/
structure Alike (i j : InspectionRun codecs) : Prop where
  tree : j.world.tree = i.world.tree
  root : j.world.root = i.world.root
  inputs : j.request.inputs = i.request.inputs
  excludes : j.request.excludes = i.request.excludes
  key : j.key = i.key
  encoding : j.settings.encoding = i.settings.encoding

/-- The verdict of a run: its exit code, which tells whether all files conform, and its reports. -/
structure Verdict (i : InspectionRun codecs) (code : Nat) (reports : List Report) : Prop where
  ends : i.EndsWith code reports
  zero_iff : code = 0 ↔ i.Conforms
  one_iff : code = 1 ↔ ¬ i.Conforms
  reported : List.Forall₂ (fun p (r : Report) => r.path = p.text ∧
    ∃ text, i.text p = .ok text ∧ inspectText i.key text = .ok r.records) i.selection.paths reports
  shared : ∀ j, i.Alike j → j.Staffed → j.Ends → j.EndsWith code reports
  written : i.request.format = .text → ((Run.render i.request reports).err ≠ "" ↔ code = 1)

section

variable {i j : InspectionRun codecs}

theorem Alike.reports_eq (h : i.Alike j) :
    j.selection.paths.mapM j.report = i.selection.paths.mapM i.report := by
  have hselection : j.selection = i.selection := by
    rw [selection, selection, h.tree, h.root, h.inputs, h.excludes]
  have hreport : j.report = i.report := by
    funext p
    rw [report, report, h.tree, h.key, h.encoding]
  rw [hselection, hreport]

theorem conforms_iff_forall_passed {reports : List Report}
    (h : List.Forall₂ (fun p (r : Report) => r.path = p.text ∧
      ∃ text, i.text p = .ok text ∧ inspectText i.key text = .ok r.records)
      i.selection.paths reports) :
    i.Conforms ↔ ∀ r ∈ reports, r.passed = true := by
  unfold Conforms
  generalize i.selection.paths = paths at h ⊢
  induction h with
  | nil => simp
  | @cons p r ps rs hp hps ih =>
      obtain ⟨_, text, htext, hinspect⟩ := hp
      have hpassed := Report.passed_iff hinspect
      rw [List.forall_mem_cons, List.forall_mem_cons, ih, hpassed]
      refine and_congr_left fun _ => ⟨fun hall => ?_, fun hnil text' htext' => ?_⟩
      · rw [hall text htext] at hinspect
        exact (Except.ok.inj hinspect).symm
      · rw [htext] at htext'
        cases htext'
        rw [hinspect, hnil]

theorem verdict_of_orderly (hstaffed : i.Staffed) (horderly : i.Orderly) {reports : List Report}
    (h : i.selection.paths.mapM i.report = .ok reports) :
    i.Verdict (Run.exitCode reports) reports := by
  have hreported : List.Forall₂ (fun p (r : Report) => r.path = p.text ∧
      ∃ text, i.text p = .ok text ∧ inspectText i.key text = .ok r.records)
      i.selection.paths reports :=
    (mapM_eq_ok_iff.1 h).imp fun p r hr => reportFile_eq_ok_iff.1 hr
  have hconforms := conforms_iff_forall_passed hreported
  constructor
  case ends => exact endsWith_of_reports hstaffed horderly h
  case zero_iff => rw [Run.exitCode_eq_zero_iff, hconforms]
  case one_iff => rw [Run.exitCode_eq_one_iff, hconforms]
  case reported => exact hreported
  case shared =>
    intro j halike hstaffed' hends
    exact endsWith_of_reports hstaffed' (hends.orderly hstaffed') (halike.reports_eq.trans h)
  case written =>
    intro hformat
    rw [Run.exitCode_eq_one_iff, ne_eq, Run.render, hformat]
    exact not_congr (Report.err_renderPlain_eq_empty_iff i.request.verbose)

end

/-- A run whose files can all be read gives a verdict exactly if it is orderly. -/
theorem exists_verdict_iff_orderly (i : InspectionRun codecs) (hstaffed : i.Staffed)
    (h : i.Readable) : (∃ code reports, i.Verdict code reports) ↔ i.Orderly := by
  constructor
  · rintro ⟨code, reports, hverdict⟩
    obtain ⟨lines, _, hrun⟩ := hverdict.ends
    exact Ends.orderly ⟨code, _, hrun⟩ hstaffed
  · intro horderly
    obtain ⟨reports, hreports⟩ := exists_reports h
    exact ⟨_, reports, verdict_of_orderly hstaffed horderly hreports⟩

/-- Two workers inspect a file that conforms and one that does not. -/
def twoFiles : InspectionRun .common where
  world :=
    { tree := (FileTree.empty.addFile ["A.cs"] []).addFile ["B.cs"] "using System;".toUTF8.toList
      environment := []
      home := ⟨"/", []⟩
      root := ⟨"/", []⟩
      turns := [1, 0, 0] }
  arguments := ["-i", "*.cs", "--workers", "2", "--format", "json"]
  request := ⟨some ["*.cs"], [], false, .json, .nothing, .value 2⟩
  file := none
  settings := .default
  asks := by decide +kernel
  reads := by decide +kernel
  valid := by decide +kernel

/-- The sort key of the command line is dropped. -/
def sortKeyDropped : InspectionRun .common where
  world :=
    { tree := FileTree.empty.addFile ["A.cs"] []
      environment := []
      home := ⟨"/", []⟩
      root := ⟨"/", []⟩
      turns := [] }
  arguments := ["-i", "A.cs", "--sort-key=--"]
  request := ⟨some ["A.cs"], [], false, .text, .noValue, .nothing⟩
  file := none
  settings := .default
  asks := by decide +kernel
  reads := by decide +kernel
  valid := by decide +kernel

theorem exists_verdict_of_twoFiles :
    twoFiles.Staffed ∧ twoFiles.Readable ∧ ∃ code reports, twoFiles.Verdict code reports := by
  have hstaffed : twoFiles.Staffed := by
    unfold Staffed
    decide +kernel
  have hpaths : twoFiles.selection.paths = [⟨"/", ["A.cs"]⟩, ⟨"/", ["B.cs"]⟩] := by
    decide +kernel
  have hread : twoFiles.Readable := by
    have hA : twoFiles.text ⟨"/", ["A.cs"]⟩ = .ok "" := by decide +kernel
    have hB : twoFiles.text ⟨"/", ["B.cs"]⟩ = .ok "using System;" := by decide +kernel
    rw [Readable, hpaths]
    simp [hA, hB]
  have horderly : twoFiles.Orderly := by
    constructor
    · decide
    · decide
    · unfold ListsNull
      decide +kernel
  exact ⟨hstaffed, hread, (exists_verdict_iff_orderly twoFiles hstaffed hread).2 horderly⟩

/-- A run over conforming files that gives no verdict. -/
theorem not_verdict_of_sortKeyDropped :
    sortKeyDropped.Staffed ∧ sortKeyDropped.Readable ∧ sortKeyDropped.Conforms ∧
      ¬ ∃ code reports, sortKeyDropped.Verdict code reports := by
  have hstaffed : sortKeyDropped.Staffed := by
    unfold Staffed
    decide +kernel
  have hpaths : sortKeyDropped.selection.paths = [⟨"/", ["A.cs"]⟩] := by decide +kernel
  have htext : sortKeyDropped.text ⟨"/", ["A.cs"]⟩ = .ok "" := by decide +kernel
  have hinspect : inspectText sortKeyDropped.key "" = .ok [] := by decide +kernel
  refine ⟨hstaffed, ?_, ?_, ?_⟩
  · rw [Readable, hpaths]
    simp [htext]
  · rw [Conforms, hpaths]
    simp [htext, hinspect]
  · rintro ⟨code, reports, hverdict⟩
    obtain ⟨lines, _, hrun⟩ := hverdict.ends
    exact (Ends.orderly ⟨code, _, hrun⟩ hstaffed).sortKey rfl

end InspectionRun
end UsingStyle
