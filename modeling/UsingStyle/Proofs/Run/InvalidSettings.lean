import UsingStyle.Proofs.Run.Stages
import UsingStyle.Proofs.Settings

/-! # Runs under invalid settings

A run that its command line asks to inspect ends with code 1 if a setting is invalid. It looks at no
file then but the settings file, and it writes one line that names every invalid setting once.
Before this line stands one for each statement of the settings file that cannot be read, and nothing
else is written. This holds for any codecs, which decide what encodings are valid.
-/

namespace UsingStyle

/-- Where a world has its settings, given what its settings file holds. -/
def World.sources (w : World) (file : Option EnvFile) : Settings.Sources :=
  ⟨w.environment, file⟩

namespace Run

open Settings

/-! ## The lines that are written -/

/-- The lines about the statements of the settings file that cannot be read. -/
def warningLines (file : Option EnvFile) : List String :=
  (file.elim [] EnvFile.unreadable).map statementWarning

/-- The line about the invalid settings. -/
def invalidLine (codecs : Codecs) (sources : Sources) : String :=
  "opinionated-usings: error: invalid settings: " ++
    "; ".intercalate ((invalid codecs sources).map fun p => p.1.entry p.2)

theorem problemText_problem (f : Field) (cause : Untyped.Cause) :
    problemText (f.problem cause) = f.entry cause := by
  simp [problemText, Field.problem, Field.entry]

theorem errorLine_invalid (codecs : Codecs) (sources : Sources) :
    CommandLine.errorLine
        (settingsMessage ((invalid codecs sources).map fun p => p.1.problem p.2)) =
      invalidLine codecs sources ++ "\n" := by
  have hfront : CommandLine.program ++ ": error: " ++ "invalid settings: " =
      "opinionated-usings: error: invalid settings: " := rfl
  have hmessage : ∀ ps, settingsMessage ps =
      "invalid settings: " ++ "; ".intercalate (ps.map problemText) := fun _ => rfl
  have hline : invalidLine codecs sources = "opinionated-usings: error: invalid settings: " ++
      "; ".intercalate ((invalid codecs sources).map fun p => p.1.entry p.2) := rfl
  have hentries : (invalid codecs sources).map (problemText ∘ fun p => p.1.problem p.2) =
      (invalid codecs sources).map fun p => p.1.entry p.2 :=
    List.map_congr_left fun p _ => problemText_problem p.1 p.2
  rw [CommandLine.errorLine, hmessage, List.map_map, hentries, hline, ← hfront]
  simp only [String.append_assoc]

theorem err_foldr_errLine (ls : List String) :
    (ls.foldr (fun line rest => (Output.errLine line).append rest) .empty).err =
      String.join (ls.map (· ++ "\n")) := by
  induction ls with
  | nil => rfl
  | cons line ls ih =>
      rw [List.foldr_cons, Output.err_append, ih, List.map_cons, String.join_cons]
      rfl

theorem err_warnings (file : Option EnvFile) :
    (warnings file).err = String.join ((warningLines file).map (· ++ "\n")) := by
  rw [← err_foldr_errLine]
  cases file with
  | none => rfl
  | some f =>
      rw [warningLines, List.foldr_map]
      rfl

theorem unbroken_warningLine {file : Option EnvFile} {line : String}
    (h : line ∈ warningLines file) : Text.Unbroken line := by
  obtain ⟨n, -, rfl⟩ := List.mem_map.1 h
  exact Text.unbroken_append_iff.2 ⟨Text.unbroken_ofList (by decide), Text.unbroken_natural n⟩

theorem unbroken_invalidLine (codecs : Codecs) (sources : Sources) :
    Text.Unbroken (invalidLine codecs sources) := by
  refine Text.unbroken_append_iff.2 ⟨Text.unbroken_ofList (by decide),
    Text.unbroken_intercalate (Text.unbroken_ofList (by decide)) ?_⟩
  intro entry hentry
  obtain ⟨p, hp, rfl⟩ := List.mem_map.1 hentry
  exact unbroken_entry hp

/-- What a run writes on the error stream under invalid settings. -/
theorem lines_warnings_append (codecs : Codecs) (file : Option EnvFile) (sources : Sources) :
    Text.lines ((warnings file).err ++ (invalidLine codecs sources ++ "\n")) =
      warningLines file ++ [invalidLine codecs sources] := by
  have hjoin : (warnings file).err ++ (invalidLine codecs sources ++ "\n") =
      String.join ((warningLines file ++ [invalidLine codecs sources]).map (· ++ "\n")) := by
    rw [err_warnings, List.map_append, String.join_append]
    simp
  rw [hjoin]
  refine Text.lines_join fun line hline => ?_
  rcases List.mem_append.1 hline with hwarning | herror
  · exact unbroken_warningLine hwarning
  · rw [List.mem_singleton.1 herror]
    exact unbroken_invalidLine codecs sources

end Run

section

variable {codecs : Codecs} {w : World} {arguments : List String} {r : CommandLine.Request}
  {file : Option EnvFile}

theorem run_of_invalid (hasks : CommandLine.parse arguments = .ok (.run r))
    (hreads : w.settingsFile? = .ok file) (h : Settings.invalid codecs (w.sources file) ≠ []) :
    run w arguments codecs = .exit 1
      ⟨"", (Run.warnings file).err ++ (Run.invalidLine codecs (w.sources file) ++ "\n")⟩ := by
  have hread : w.settings file codecs =
      .error ((Settings.invalid codecs (w.sources file)).map fun p => p.1.problem p.2) :=
    Settings.read_of_invalid h
  simp only [run, hasks, Run.inspection, hreads, hread, Run.errorLine_invalid, Outcome.after,
    Output.append, Run.out_warnings]
  rfl

theorem exists_lines_of_invalid (hasks : CommandLine.parse arguments = .ok (.run r))
    (hreads : w.settingsFile? = .ok file)
    (hinvalid : ∃ f cause, Settings.Field.cause? codecs (w.sources file) f = some cause) :
    ∃ err, run w arguments codecs = .exit 1 ⟨"", err⟩ ∧
      Text.lines err = Run.warningLines file ++ [Run.invalidLine codecs (w.sources file)] :=
  ⟨_, run_of_invalid hasks hreads (Settings.invalid_ne_nil_iff.2 hinvalid),
    Run.lines_warnings_append codecs file _⟩

/-- An inspection under settings that are invalid for the codecs at hand ends with code 1 and writes
nothing to the standard stream. The lines of the error stream, in the widest sense, are one for each
statement of the settings file that cannot be read, and then a single one that names each invalid
setting once, in the order of declaration, with what is wrong with it. No file but the settings file
has a part in this. -/
theorem run_of_invalid_settings (hasks : CommandLine.parse arguments = .ok (.run r))
    (hreads : w.settingsFile? = .ok file)
    (hinvalid : ∃ f cause, Settings.Field.cause? codecs (w.sources file) f = some cause) :
    (∃ err, run w arguments codecs = .exit 1 ⟨"", err⟩ ∧
      Text.lines err = Run.warningLines file ++ [Run.invalidLine codecs (w.sources file)]) ∧
    (Settings.invalid codecs (w.sources file)).map Prod.fst =
      Settings.Field.all.filter
        (fun f => (Settings.Field.cause? codecs (w.sources file) f).isSome) ∧
    ∀ w' : World, w'.environment = w.environment → w'.settingsFile? = w.settingsFile? →
      run w' arguments codecs = run w arguments codecs := by
  refine ⟨exists_lines_of_invalid hasks hreads hinvalid, Settings.fst_invalid codecs _, ?_⟩
  intro w' henvironment hfile
  have hne := Settings.invalid_ne_nil_iff.2 hinvalid
  have hsources : w'.sources file = w.sources file := by
    rw [World.sources, henvironment]
    rfl
  have hrun' := run_of_invalid (w := w') hasks (hfile.trans hreads) (hsources ▸ hne)
  rw [hrun', run_of_invalid hasks hreads hne, hsources]

end

/-- An environment and a settings file with an invalid value each. The value in the environment
holds a line end of Unicode, a line feed and both quotes, and a statement of the file cannot be
read. -/
def brokenValues : World where
  tree := FileTree.empty.addFile [".env"] "OPINIONATED_USINGS_SORT_KEY=x\n=\n".toUTF8.toList
  environment := [("OPINIONATED_USINGS_LOG_LEVEL", "a\u2028\n'\"")]
  home := ⟨"/", []⟩
  root := ⟨"/", []⟩
  turns := []

theorem parse_allFiles : CommandLine.parse ["-i", "*.cs"] =
    .ok (.run ⟨some ["*.cs"], [], false, .text, .nothing, .nothing⟩) := by
  decide +kernel

theorem settingsFile?_brokenValues : brokenValues.settingsFile? =
    .ok (some ⟨[("OPINIONATED_USINGS_SORT_KEY", some "x")], [2]⟩) := by
  decide +kernel

theorem exists_cause_brokenValues : ∃ f cause, Settings.Field.cause? .common (brokenValues.sources
    (some ⟨[("OPINIONATED_USINGS_SORT_KEY", some "x")], [2]⟩)) f = some cause :=
  ⟨.sortKey, .notSortKey, by decide +kernel⟩

theorem run_of_brokenValues :
    CommandLine.parse ["-i", "*.cs"] =
        .ok (.run ⟨some ["*.cs"], [], false, .text, .nothing, .nothing⟩) ∧
      brokenValues.settingsFile? =
        .ok (some ⟨[("OPINIONATED_USINGS_SORT_KEY", some "x")], [2]⟩) ∧
      ∃ err, run brokenValues ["-i", "*.cs"] .common = .exit 1 ⟨"", err⟩ ∧ Text.lines err =
        ["python-dotenv could not parse statement starting at line 2",
          "opinionated-usings: error: invalid settings: log_level: Value error, " ++
            "Unknown log level: 'a\\u2028\\n\\'\"'; " ++
            "sort_key: Input should be 'name' or 'alias'"] := by
  obtain ⟨⟨err, hrun, hlines⟩, -, -⟩ := run_of_invalid_settings parse_allFiles
    settingsFile?_brokenValues exists_cause_brokenValues
  refine ⟨parse_allFiles, settingsFile?_brokenValues, err, hrun, hlines.trans ?_⟩
  decide +kernel

/-- The same environment with a settings file that is not UTF-8. -/
def brokenFile : World :=
  { brokenValues with tree := FileTree.empty.addFile [".env"] [0xff] }

theorem exists_cause_brokenFile (file : Option EnvFile) :
    ∃ f cause, Settings.Field.cause? .common (brokenFile.sources file) f = some cause := by
  have hvalue : (brokenFile.sources file).value? "log_level" = some "a\u2028\n'\"" := by
    refine Settings.value?_of_environment ?_
    change Settings.valueIn? [("OPINIONATED_USINGS_LOG_LEVEL", some "a\u2028\n'\"")] _ = _
    decide +kernel
  have hrefusal : Settings.Field.refusal? .common "a\u2028\n'\"" .logLevel =
      some (.refused "Unknown log level: 'a\\u2028\\n\\'\"'") := by
    decide +kernel
  exact ⟨.logLevel, _, Option.bind_eq_some_iff.2 ⟨_, hvalue, hrefusal⟩⟩

/-- A statement of the settings file that cannot be read adds a line of its own, and a settings file
that is not UTF-8 breaks the run off. -/
theorem not_forall_single_line :
    (¬ ∀ (codecs : Codecs) (w : World) (arguments : List String) (r : CommandLine.Request)
      (file : Option EnvFile), CommandLine.parse arguments = .ok (.run r) →
        w.settingsFile? = .ok file →
        (∃ f cause, Settings.Field.cause? codecs (w.sources file) f = some cause) →
          ∃ err line, run w arguments codecs = .exit 1 ⟨"", err⟩ ∧ Text.lines err = [line]) ∧
    ¬ ∀ (codecs : Codecs) (w : World) (arguments : List String) (r : CommandLine.Request),
      CommandLine.parse arguments = .ok (.run r) →
        (∀ file, ∃ f cause, Settings.Field.cause? codecs (w.sources file) f = some cause) →
          ∃ output, run w arguments codecs = .exit 1 output := by
  constructor
  · intro h
    obtain ⟨err, line, hrun, hone⟩ := h .common _ _ _ _ parse_allFiles settingsFile?_brokenValues
      exists_cause_brokenValues
    obtain ⟨err', hrun', htwo⟩ := exists_lines_of_invalid parse_allFiles
      settingsFile?_brokenValues exists_cause_brokenValues
    rw [hrun'] at hrun
    cases hrun
    have hlengths := congrArg List.length (hone.symm.trans htwo)
    simp [Run.warningLines] at hlengths
  · intro h
    obtain ⟨output, hexit⟩ := h .common brokenFile _ _ parse_allFiles exists_cause_brokenFile
    have hfault : brokenFile.settingsFile? = .error ⟨0, 0xff, 1, .start⟩ := by decide +kernel
    simp only [run, parse_allFiles, Run.inspection, hfault] at hexit
    contradiction

end UsingStyle
