import UsingStyle.Proofs.Encoding
import UsingStyle.Proofs.Run.Stages

/-! # Runs that break off

A run should end with code 0 or 1, and with code 1 and a message when a file cannot be read. All
errors of reading end it so, and so does an encoding that does not exist or is none of text. But a
decoder may refuse the bytes of a file, as UTF-16 does without a byte-order mark, and nobody catches
this. Apart from it, a run breaks off for a settings file that is not UTF-8, for a flag that has
lost its value, and for null characters in a pattern or path.
-/

namespace UsingStyle

/-! ## Errors of reading -/

/-- The error of decoding is one of reading, unless the decoder refuses the bytes. -/
theorem decodeText_error {codecs : Codecs} {encoding : String} {bytes : List UInt8} {e : FileError}
    (h : decodeText codecs encoding bytes = .error e) :
    Run.isReadError e = true ∨ codecs.Refuse encoding bytes := by
  unfold decodeText at h
  split at h
  · cases h
    exact .inl rfl
  · cases h
    exact .inl rfl
  · rename_i decode hlookup
    split at h
    · contradiction
    · rename_i refusal hrefusal
      exact .inr ⟨decode, refusal, hlookup, hrefusal⟩

theorem decodeText_of_refuse {codecs : Codecs} {encoding : String} {bytes : List UInt8}
    (h : codecs.Refuse encoding bytes) :
    ∃ refusal, decodeText codecs encoding bytes = .error (.undecodable refusal) := by
  obtain ⟨decode, refusal, hlookup, hrefusal⟩ := h
  exact ⟨refusal, by simp only [decodeText, hlookup, hrefusal]⟩

theorem FileTree.isReadError_of_read {t : FileTree} {p : Path} {e : FileError}
    (h : t.read p = .error e) : Run.isReadError e = true := by
  unfold FileTree.read at h
  split at h
  · cases h
    rfl
  · cases h
    rfl
  · cases h
    rfl
  · split at h
    · contradiction
    · cases h
      rfl
    · cases h
      rfl

/-! ## Accepted encodings -/

namespace Untyped.Checked

theorem both_eq_ok {α β : Type} {a : Checked α} {b : Checked β} {x : α × β}
    (h : both a b = .ok x) : a = .ok x.1 ∧ b = .ok x.2 := by
  cases a <;> cases b <;> cases h
  exact ⟨rfl, rfl⟩

theorem under_eq_ok {α : Type} {step : Step} {a : Checked α} {x : α} (h : under step a = .ok x) :
    a = .ok x := by
  cases a with
  | error ps => contradiction
  | ok y => exact h

end Untyped.Checked

namespace Settings

open Untyped

theorem setting_eq_ok {α : Type} {sources : Sources} {name : String} {absent a : α}
    {check : String → Checked α} (h : setting sources name absent check = .ok a) :
    a = absent ∨ ∃ s, check s = .ok a := by
  unfold setting at h
  split at h
  · exact .inr ⟨_, Checked.under_eq_ok h⟩
  · exact .inl (Except.ok.inj h).symm

theorem notMem_null_of_checkEncoding {codecs : Codecs} {name encoding : String}
    (h : checkEncoding codecs name = .ok encoding) :
    encoding.toList.contains '\x00' = false := by
  unfold checkEncoding at h
  split at h
  · contradiction
  · rename_i hnull
    split at h
    · contradiction
    · cases h
      simpa using hnull

/-- The name of an accepted encoding has no null character. -/
theorem encoding_of_read {codecs : Codecs} {sources : Sources} {s : Settings}
    (h : read codecs sources = .ok s) : s.encoding.toList.contains '\x00' = false := by
  unfold read at h
  dsimp only at h
  cases hall : Checked.both (setting sources "log_level" default.logLevel checkLogLevel)
      (Checked.both (setting sources "workers" default.workers (integerText 1))
        (Checked.both (setting sources "encoding" default.encoding (checkEncoding codecs))
          (setting sources "sort_key" default.sortKey checkSortKey))) with
  | error ps =>
      rw [hall] at h
      contradiction
  | ok x =>
      rw [hall] at h
      cases h
      have hencoding := (Checked.both_eq_ok (Checked.both_eq_ok
        (Checked.both_eq_ok hall).2).2).1
      rcases setting_eq_ok hencoding with habsent | ⟨name, hname⟩
      · dsimp only
        rw [habsent]
        decide
      · exact notMem_null_of_checkEncoding hname

end Settings

/-! ## Files that break a run -/

namespace InspectionRun

variable {codecs : Codecs}

/-- The file cannot be read, and the error is not one of reading: its path holds a null character,
or the decoder refuses its bytes. -/
def Breaks (i : InspectionRun codecs) (p : Path) : Prop :=
  p.text.toList.contains '\x00' = true ∨
    ∃ bytes, i.world.tree.read p = .ok bytes ∧ codecs.Refuse i.settings.encoding bytes

theorem breaks_iff {i : InspectionRun codecs} {p : Path} :
    i.Breaks p ↔ ∃ e, i.text p = .error e ∧ Run.isReadError e = false := by
  have hencoding := Settings.encoding_of_read i.valid
  unfold Breaks text FileTree.readText
  rw [hencoding, if_neg Bool.false_ne_true]
  by_cases hpath : p.text.toList.contains '\x00' = true
  · rw [if_pos hpath]
    exact iff_of_true (.inl hpath) ⟨_, rfl, rfl⟩
  rw [if_neg hpath, or_iff_right hpath]
  constructor
  · rintro ⟨bytes, hread, hrefuse⟩
    obtain ⟨refusal, hrefusal⟩ := decodeText_of_refuse hrefuse
    rw [hread]
    exact ⟨_, hrefusal, rfl⟩
  · rintro ⟨e, he, hnot⟩
    cases hread : i.world.tree.read p with
    | error e' =>
        rw [hread] at he
        cases he
        rw [FileTree.isReadError_of_read hread] at hnot
        contradiction
    | ok bytes =>
        rw [hread] at he
        rcases decodeText_error he with hyes | hrefuse
        · rw [hyes] at hnot
          contradiction
        · exact ⟨bytes, rfl, hrefuse⟩

/-- Why an inspection breaks off. -/
inductive Escapes (i : InspectionRun codecs) : Prop
  | workersDropped (h : i.request.workers = .noValue)
  | sortKeyDropped (hstaffed : i.Staffed) (h : i.request.sortKey = .noValue)
  | nullInPattern (hstaffed : i.Staffed) (h : i.ListsNull)
  | file (hstaffed : i.Staffed) {before after : List Path} {p : Path}
      (hpaths : i.selection.paths = before ++ p :: after)
      (hbefore : ∀ q ∈ before, ∃ text, i.text q = .ok text) (h : i.Breaks p)

theorem Escapes.abort {i : InspectionRun codecs} (h : i.Escapes) :
    ∃ cause, run i.world i.arguments codecs = .abort cause := by
  cases h with
  | workersDropped h => exact ⟨_, run_of_workers_dropped h⟩
  | sortKeyDropped hstaffed h => exact run_of_not_orderly hstaffed fun ho => ho.sortKey h
  | nullInPattern hstaffed h => exact run_of_not_orderly hstaffed fun ho => ho.patterns h
  | @file hstaffed before after p hpaths hbefore h =>
      by_cases horderly : i.Orderly
      · obtain ⟨workers, hrun⟩ := run_of_orderly hstaffed horderly
        obtain ⟨e, he, hnot⟩ := breaks_iff.1 h
        have herror := (firstError_eq_some_iff i.key).2 ⟨before, p, after, hpaths, hbefore, he⟩
        rw [hrun, (Run.inspectSelected_of_error i.request workers herror).2 hnot]
        exact ⟨_, rfl⟩
      · exact run_of_not_orderly hstaffed horderly

/-- The run ends with code 0 or 1, and with code 1 and a message if a file cannot be read. -/
def Reports (i : InspectionRun codecs) (code : Nat) (output : Output) : Prop :=
  (code = 0 ∨ code = 1) ∧ (i.Readable ∨ code = 1 ∧ output.err ≠ "")

theorem exists_reports_of_not_escapes {i : InspectionRun codecs} (h : ¬ i.Escapes) :
    ∃ code output, run i.world i.arguments codecs = .exit code output ∧
      i.Reports code output := by
  have hworkers : i.request.workers ≠ .noValue := fun hdropped => h (.workersDropped hdropped)
  by_cases hstaffed : i.Staffed
  · have hkey : i.request.sortKey ≠ .noValue := fun hkey => h (.sortKeyDropped hstaffed hkey)
    have hpatterns : ¬ i.ListsNull := fun hnull => h (.nullInPattern hstaffed hnull)
    have horderly : i.Orderly := ⟨hworkers, hkey, hpatterns⟩
    rcases i.reports_or_first_error with ⟨reports, hreports⟩ | ⟨e, herror⟩
    · obtain ⟨lines, _, hrun⟩ := endsWith_of_reports hstaffed horderly hreports
      exact ⟨_, _, hrun, Run.exitCode_eq_zero_or_one reports, .inl (readable_of_reports hreports)⟩
    · obtain ⟨workers, hrun⟩ := run_of_orderly hstaffed horderly
      obtain ⟨before, p, after, hpaths, hbefore, hp⟩ := (firstError_eq_some_iff i.key).1 herror
      have hread : Run.isReadError e = true := by
        by_contra hnot
        exact h (.file hstaffed hpaths hbefore (breaks_iff.2 ⟨e, hp, Bool.eq_false_iff.2 hnot⟩))
      obtain ⟨output, hmessage, hexit⟩ := (Run.inspectSelected_of_error i.request workers
        herror).1 hread
      rw [hrun, hexit]
      exact ⟨1, _, rfl, .inr rfl, .inr ⟨rfl, Output.err_append_ne_empty _ hmessage⟩⟩
  · obtain ⟨output, hmessage, hrun⟩ := run_of_not_staffed hworkers hstaffed
    exact ⟨1, output, hrun, .inr rfl, .inr ⟨rfl, hmessage⟩⟩

end InspectionRun

/-! ## All runs -/

/-- Why a run breaks off. -/
inductive Escapes (codecs : Codecs) : World → List String → Prop
  /-- The settings file is not UTF-8. -/
  | settingsFile {w : World} {arguments : List String} {r : CommandLine.Request}
      {fault : Encoding.Utf8.Fault} (hasks : CommandLine.parse arguments = .ok (.run r))
      (h : w.settingsFile? = .error fault) : Escapes codecs w arguments
  | inspection (i : InspectionRun codecs) (h : i.Escapes) : Escapes codecs i.world i.arguments

/-- The run ends with code 0 or 1. If it comes to inspect and some file cannot be read, the code is
1 and there is a message on the error stream. -/
def ReturnsCode (codecs : Codecs) (w : World) (arguments : List String) : Prop :=
  ∃ code output, run w arguments codecs = .exit code output ∧ (code = 0 ∨ code = 1) ∧
    ∀ i : InspectionRun codecs, i.world = w → i.arguments = arguments →
      i.Readable ∨ code = 1 ∧ output.err ≠ ""

section

variable {codecs : Codecs} {w : World} {arguments : List String}

theorem Escapes.abort (h : Escapes codecs w arguments) :
    ∃ cause, run w arguments codecs = .abort cause := by
  cases h with
  | settingsFile hasks h =>
      simp only [run, hasks, Run.inspection, h]
      exact ⟨_, rfl⟩
  | inspection i h => exact h.abort

/-- A run that never comes to inspect has read its command line and its settings to the end, or has
an error message for them. -/
theorem exit_of_not_inspecting (h : ¬ Escapes codecs w arguments)
    (hnone : ∀ i : InspectionRun codecs, i.world = w → i.arguments ≠ arguments) :
    ∃ code output, run w arguments codecs = .exit code output ∧ (code = 0 ∨ code = 1) := by
  cases hasks : CommandLine.parse arguments with
  | error e =>
      simp only [run, hasks]
      exact ⟨1, _, rfl, .inr rfl⟩
  | ok command =>
      cases command with
      | help =>
          simp only [run, hasks]
          exact ⟨0, _, rfl, .inl rfl⟩
      | version =>
          simp only [run, hasks]
          exact ⟨0, _, rfl, .inl rfl⟩
      | run r =>
          cases hfile : w.settingsFile? with
          | error fault => exact absurd (.settingsFile hasks hfile) h
          | ok file =>
              cases hsettings : w.settings file codecs with
              | error ps =>
                  simp only [run, hasks, Run.inspection, hfile, hsettings]
                  exact ⟨1, _, rfl, .inr rfl⟩
              | ok s =>
                  let i : InspectionRun codecs :=
                    ⟨w, arguments, r, file, s, hasks, hfile, hsettings⟩
                  exact absurd rfl (hnone i rfl)

end

/-- Whatever codecs there are, a run returns its code exactly if none of the causes above breaks it
off. -/
theorem returnsCode_iff_not_escapes (codecs : Codecs) (w : World) (arguments : List String) :
    ReturnsCode codecs w arguments ↔ ¬ Escapes codecs w arguments := by
  constructor
  · rintro ⟨code, output, hexit, _⟩ hescapes
    obtain ⟨cause, habort⟩ := hescapes.abort
    rw [habort] at hexit
    contradiction
  · intro h
    by_cases hinspects : ∃ i : InspectionRun codecs, i.world = w ∧ i.arguments = arguments
    · obtain ⟨i, rfl, rfl⟩ := hinspects
      obtain ⟨code, output, hexit, hcode, _⟩ :=
        InspectionRun.exists_reports_of_not_escapes fun hi => h (.inspection i hi)
      refine ⟨code, output, hexit, hcode, fun j hworld harguments => ?_⟩
      -- another run of the same arguments in the same world is the same run
      obtain ⟨code', output', hexit', _, hreports⟩ :=
        InspectionRun.exists_reports_of_not_escapes (i := j) fun hj =>
          h (hworld ▸ harguments ▸ .inspection j hj)
      rw [hworld, harguments, hexit] at hexit'
      cases hexit'
      exact hreports
    · have hnone : ∀ i : InspectionRun codecs, i.world = w → i.arguments ≠ arguments :=
        fun i hworld harguments => hinspects ⟨i, hworld, harguments⟩
      obtain ⟨code, output, hexit, hcode⟩ := exit_of_not_inspecting h hnone
      refine ⟨code, output, hexit, hcode, fun i hworld harguments => ?_⟩
      exact absurd harguments (hnone i hworld)

/-- A file of two bytes, which the settings take for UTF-16. -/
def unmarkedFile : World where
  tree := FileTree.empty.addFile ["A.cs"] [0x61, 0x62]
  environment := [("OPINIONATED_USINGS_ENCODING", "utf-16")]
  home := ⟨"/", []⟩
  root := ⟨"/", []⟩
  turns := []

theorem not_returnsCode_of_unmarkedFile : ¬ ReturnsCode .common unmarkedFile ["-i", "A.cs"] := by
  have habort : run unmarkedFile ["-i", "A.cs"] .common =
      .abort (.file (.undecodable "UTF-16 stream does not start with BOM")) := by
    decide +kernel
  rintro ⟨code, output, hexit, _⟩
  rw [habort] at hexit
  contradiction

end UsingStyle
