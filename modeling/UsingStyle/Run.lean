import UsingStyle.CommandLine.Request
import UsingStyle.FileTree.Select
import UsingStyle.Inspection.File
import UsingStyle.Report.Json
import UsingStyle.Report.Plain
import UsingStyle.Settings

/-! # A run of the program

A run reads its command line and its settings, selects files, inspects them and prints the reports.
It is a function of the world that it sees: the files, the environment, two directories and the
turns of its workers; and of the codecs that the system knows. Log lines and messages go to the
error stream in the order in which they arise.
-/

namespace UsingStyle

/-- What a run sees. -/
structure World where
  tree : FileTree
  environment : List (String × String)
  /-- Where the settings file is looked up. -/
  home : Path
  /-- Where patterns start. -/
  root : Path
  /-- Which worker acts at each step, should several share the files. -/
  turns : List Nat

/-- Why a run breaks off. -/
inductive Abort where
  /-- The settings file is not UTF-8. -/
  | settingsFile (fault : Encoding.Utf8.Fault)
  /-- The value of `--workers` was dropped. -/
  | workersWithoutValue
  /-- The value of `--sort-key` was dropped. -/
  | sortKeyWithoutValue
  /-- A pattern asks to list a directory that cannot be named. -/
  | nullInPattern
  /-- A file cannot be inspected. -/
  | file (error : FileError)
  deriving DecidableEq, Repr

/-- The text of the error. -/
def Abort.message : Abort → String
  | settingsFile fault => fault.message
  | workersWithoutValue => "'<' not supported between instances of 'list' and 'int'"
  | sortKeyWithoutValue => "[] is not a valid SortKey"
  | nullInPattern => "embedded null byte"
  | file error => error.message

/-- How a run ends. -/
inductive Outcome where
  /-- The run ends with an exit code. -/
  | exit (code : Nat) (output : Output)
  /-- The run breaks off without an exit code of its own. -/
  | abort (cause : Abort)
  deriving DecidableEq, Repr

/-- The outcome when something is written first. -/
def Outcome.after (first : Output) : Outcome → Outcome
  | exit code output => exit code (first.append output)
  | abort cause => abort cause

namespace World

/-- What the settings file holds, if there is one. -/
def settingsFile? (w : World) : Except Encoding.Utf8.Fault (Option EnvFile) :=
  match w.tree.entry? (w.home.push ".env").location with
  | some (.file content) => do
    let text ← Encoding.Utf8.decodeStrict content
    return some (.ofText (String.ofList (Encoding.unifyBreaks text)))
  | _ => .ok none

/-- The settings of the world, given what its settings file holds and which codecs there are. -/
def settings (w : World) (file : Option EnvFile) (codecs : Codecs := .common) :
    Untyped.Checked Settings :=
  Settings.read codecs ⟨w.environment, file⟩

end World

namespace Run

/-! ## Messages -/

/-- The parts of the program that log. -/
inductive Logger where
  | cli
  | scan

/-- The name of a part. -/
def Logger.name : Logger → String
  | cli => "opinionated_usings.cli"
  | scan => "opinionated_usings.scan"

/-- A log line, if the level shows it. -/
def log (level line : LogLevel) (logger : Logger) (message : String) : Output :=
  if level.shows line then .errLine (line.name ++ ":" ++ logger.name ++ ":" ++ message) else .empty

/-- A problem with a setting, as one message shows several. -/
def problemText (p : Untyped.Problem) : String :=
  let steps := p.place.map fun step =>
    match step with
    | .field name => name
    | .item index => Text.natural index
  ".".intercalate steps ++ ": " ++ p.cause.message

/-- The message about invalid settings. -/
def settingsMessage (ps : List Untyped.Problem) : String :=
  "invalid settings: " ++ "; ".intercalate (ps.map problemText)

/-- The warning about a statement of the settings file. -/
def statementWarning (line : Nat) : String :=
  "python-dotenv could not parse statement starting at line " ++ Text.natural line

/-- The warnings about the settings file. -/
def warnings (file : Option EnvFile) : Output :=
  match file with
  | some f =>
    f.unreadable.foldr (fun line rest => (Output.errLine (statementWarning line)).append rest)
      .empty
  | none => .empty

/-- The log line about the selected files. -/
def selectionMessage (s : FileTree.Selection) : String :=
  "Matched " ++ Text.natural s.paths.length ++ " file(s) (" ++ Text.natural s.included ++
    " included, " ++ Text.natural (s.included - s.paths.length) ++ " excluded)"

/-- The log line about the start of the inspection. -/
def startMessage (files : Nat) (key : SortKey) (workers : Workers) : String :=
  "Inspecting " ++ Text.natural files ++ " file(s) (sort_key=" ++ key.word ++ ", workers=" ++
    Text.natural workers.count ++ ")"

/-- The log line about one file. -/
def fileMessage (i : FileInspection) : String :=
  i.report.path ++ ": " ++ Text.natural i.directives ++ " using directive(s)"

/-- The message about a file that cannot be read. -/
def failureMessage (e : FileError) : String :=
  "Failed to read input: " ++ e.message

/-! ## Steps -/

/-- Whether an error is about reading, and so ends the run with a message. The refusal of a decoder
is none. -/
def isReadError : FileError → Bool
  | .notFound _ | .isDirectory _ | .notDirectory _ | .nameTooLong _ => true
  | .unknownEncoding _ | .notTextEncoding _ => true
  | .nullInEncoding | .nullInPath | .undecodable _ | .inspection _ => false

/-- Prints the reports as the request asks. -/
def render (r : CommandLine.Request) (reports : List Report) : Output :=
  match r.format with
  | .text => Report.renderPlain r.verbose reports
  | .json => ⟨Report.renderJson reports, ""⟩

/-- The exit code for the reports. -/
def exitCode (reports : List Report) : Nat :=
  if reports.all Report.passed then 0 else 1

/-- Inspects the selected files. -/
def inspectSelected (codecs : Codecs) (w : World) (r : CommandLine.Request) (s : Settings)
    (workers : Workers) (key : SortKey) (selection : FileTree.Selection) : Outcome :=
  let (inspections, error) :=
    inspectFiles codecs w.tree key s.encoding workers w.turns selection.paths
  let before :=
    (log s.logLevel .debug .scan (selectionMessage selection)).append <|
    (log s.logLevel .info .cli (startMessage selection.paths.length key workers)).append <|
    inspections.foldr (fun i rest => (log s.logLevel .debug .scan (fileMessage i)).append rest)
      .empty
  match error with
  | none =>
    let reports := inspections.map FileInspection.report
    .exit (exitCode reports) (before.append (render r reports))
  | some e =>
    if isReadError e then
      .exit 1 (before.append ((log s.logLevel .error .cli (failureMessage e)).append
        (.errLine (failureMessage e))))
    else .abort (.file e)

/-- What the request gives for a flag, or else what the settings say; an error if the value of the
flag was dropped. -/
def given {α : Type} (error : Abort) (absent : α) : CommandLine.Given α → Except Abort α
  | .nothing => .ok absent
  | .noValue => .error error
  | .value a => .ok a

/-- Selects and inspects files under valid settings. -/
def inspectWith (codecs : Codecs) (w : World) (r : CommandLine.Request) (s : Settings) :
    Except Abort Outcome := do
  match Workers.ofInt (← given .workersWithoutValue s.workers r.workers) with
  | .error _ => return .exit 1 ⟨"", CommandLine.errorLine "--workers must be at least 1"⟩
  | .ok workers =>
    let key ← given .sortKeyWithoutValue s.sortKey r.sortKey
    match w.tree.select? w.root (r.inputs.getD []) r.excludes with
    | none => throw .nullInPattern
    | some selection => return inspectSelected codecs w r s workers key selection

/-- Runs an inspection that was asked for. -/
def inspection (codecs : Codecs) (w : World) (r : CommandLine.Request) : Outcome :=
  match w.settingsFile? with
  | .error fault => .abort (.settingsFile fault)
  | .ok file =>
    Outcome.after (warnings file) <|
      match w.settings file codecs with
      | .error ps => .exit 1 ⟨"", CommandLine.errorLine (settingsMessage ps)⟩
      | .ok s =>
        match inspectWith codecs w r s with
        | .error cause => .abort cause
        | .ok outcome => outcome

end Run

/-- Runs the program with the given arguments. The codecs are the common ones if no others are
given. -/
def run (w : World) (arguments : List String) (codecs : Codecs := .common) : Outcome :=
  match CommandLine.parse arguments with
  | .error e => .exit 1 ⟨"", CommandLine.usageText ++ CommandLine.errorLine e.message⟩
  | .ok .help => .exit 0 ⟨CommandLine.helpText, ""⟩
  | .ok .version => .exit 0 ⟨CommandLine.versionText, ""⟩
  | .ok (.run r) => Run.inspection codecs w r

end UsingStyle
