import UsingStyle.Output
import UsingStyle.Report
import UsingStyle.Text.Decimal

/-! # Reports as plain text

Failures go to the error stream: the path, and under it each place with its messages. Passed files
are listed on the standard stream if asked for. A summary ends the error stream if any file failed.
Lines and columns are printed as people count, from one.
-/

namespace UsingStyle

namespace Report

/-- The last line of the error stream when a file failed. -/
def failureSummary : String :=
  "One or more using directives in your code base do not conform " ++
    "to the expected style. Please see above."

/-- The lines for a record with messages. -/
def recordLines (r : Record) : List String :=
  (" * Line " ++ Text.natural (r.line + 1) ++ ", column " ++ Text.natural (r.column + 1) ++ ":") ::
    r.errors.map fun e => "   * " ++ e

/-- The lines for a failed file. -/
def failureLines (r : Report) : List String :=
  ("FAILED: " ++ r.path) :: r.failedRecords.flatMap recordLines

/-- The lines of the error stream. -/
def errLines (reports : List Report) : List String :=
  let failed := reports.filter fun r => !r.passed
  failed.flatMap failureLines ++ if failed.isEmpty then [] else ["", failureSummary]

/-- The lines of the standard stream. -/
def outLines (verbose : Bool) (reports : List Report) : List String :=
  if verbose then (reports.filter passed).map fun r => "PASSED: " ++ r.path else []

/-- The text of the lines, each with its line feed. -/
def joinLines (lines : List String) : String :=
  String.join (lines.map (· ++ "\n"))

/-- The reports as plain text. -/
def renderPlain (verbose : Bool) (reports : List Report) : Output :=
  ⟨joinLines (outLines verbose reports), joinLines (errLines reports)⟩

/-- The numbers that are printed for a record with messages. -/
def printedNumbers (r : Record) : List Int :=
  [r.line + 1, r.column + 1]

/-- Reports that are given as data, as plain text; none if a place is too large to be printed. -/
def renderGiven? (verbose : Bool) (reports : List Report) : Option Output :=
  if (reports.flatMap failedRecords).all fun r => (printedNumbers r).all Text.isWritable then
    some (renderPlain verbose reports)
  else none

end Report
end UsingStyle
