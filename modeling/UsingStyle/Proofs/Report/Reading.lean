import UsingStyle.Proofs.Inspection.Messages
import UsingStyle.Proofs.Report.Plain

/-! # Plain reports are read back

The error stream of plain reports lists the failed files one after the other, each with its places
and their messages. A line tells by its first two characters what it is, and messages are set in
deeper than anything else, so the failures are read back even where a message or a path looks like a
line of another kind. The standard stream tells the passed files in the same way.
-/

namespace UsingStyle

open Text

namespace Report

/-- Neither the path nor a message breaks the line. -/
def IsLined (r : Report) : Prop :=
  IsOneLine r.path ∧ ∀ record ∈ r.records, record.IsLined

instance (r : Report) : Decidable r.IsLined :=
  inferInstanceAs (Decidable (IsOneLine r.path ∧ ∀ record ∈ r.records, record.IsLined))

/-- The paths of the failed files, each with its failed records. -/
def failures (reports : List Report) : List (String × List Record) :=
  (reports.filter fun r => !r.passed).map fun r => (r.path, r.failedRecords)

/-- The paths of the passed files. -/
def passedPaths (reports : List Report) : List String :=
  (reports.filter passed).map path

end Report

/-! ## Lines and what they say -/

/-- What a line of the error stream says. -/
inductive Row where
  | file (path : String)
  | place (line column : Nat)
  | message (text : String)
  | gap
  | summary
  deriving DecidableEq, Repr

/-- The text behind a start that is as long as the given one. -/
def behind (start s : String) : String :=
  String.ofList (s.toList.drop start.toList.length)

theorem behind_append (start s : String) : behind start (start ++ s) = s := by
  rw [behind, String.toList_append, List.drop_left, String.ofList_toList]

namespace Row

/-- The line that is printed. -/
def text : Row → String
  | file path => "FAILED: " ++ path
  | place line column =>
    " * Line " ++ natural (line + 1) ++ ", column " ++ natural (column + 1) ++ ":"
  | message text => "   * " ++ text
  | gap => ""
  | summary => Report.failureSummary

/-- The place that a line names behind its start. -/
def readPlace (cs : List Char) : Row :=
  let line := readNatural cs
  let column := readNatural (line.2.drop ", column ".toList.length)
  place (line.1 - 1) (column.1 - 1)

/-- What a line says. -/
def ofLine (s : String) : Row :=
  match s.toList with
  | 'F' :: _ => file (behind "FAILED: " s)
  | ' ' :: '*' :: _ => readPlace (behind " * Line " s).toList
  | ' ' :: ' ' :: _ => message (behind "   * " s)
  | [] => gap
  | _ => summary

theorem readPlace_place (line column : Nat) :
    readPlace (natural (line + 1) ++ (", column " ++ (natural (column + 1) ++ ":"))).toList =
      place line column := by
  have hline : ∀ rest, readNatural ((natural (line + 1)).toList ++ (", column ".toList ++ rest)) =
      (line + 1, ", column ".toList ++ rest) :=
    fun rest => readNatural_natural_append (line + 1) (by decide) (" column ".toList ++ rest)
  have hcolumn : readNatural ((natural (column + 1)).toList ++ ":".toList) =
      (column + 1, ":".toList) :=
    readNatural_natural_append (column + 1) (by decide) []
  simp only [readPlace, String.toList_append, hline, List.drop_left, hcolumn, Nat.add_sub_cancel]

/-- A line is read as what it was printed for. -/
theorem ofLine_text (row : Row) : ofLine row.text = row := by
  cases row with
  | file path =>
      rw [text, ofLine, String.toList_append]
      exact congrArg file (behind_append "FAILED: " path)
  | place line column =>
      have hparts : (place line column).text =
          " * Line " ++ (natural (line + 1) ++ (", column " ++ (natural (column + 1) ++ ":"))) := by
        simp only [text, String.append_assoc]
      rw [hparts, ofLine, String.toList_append, behind_append]
      exact readPlace_place line column
  | message message =>
      rw [text, ofLine, String.toList_append]
      exact congrArg Row.message (behind_append "   * " message)
  | gap => rfl
  | summary => rfl

theorem isOneLine_file {path : String} (h : IsOneLine path) : IsOneLine (file path).text :=
  isOneLine_append_iff.2 ⟨by decide, h⟩

theorem isOneLine_place (line column : Nat) : IsOneLine (place line column).text := by
  simp only [text, isOneLine_append_iff, isOneLine_natural, and_true]
  decide

theorem isOneLine_message {text : String} (h : IsOneLine text) : IsOneLine (message text).text :=
  isOneLine_append_iff.2 ⟨by decide, h⟩

theorem isOneLine_summary : IsOneLine summary.text :=
  isOneLine_append_iff.2 ⟨isOneLine_ofList_iff.2 (by decide), isOneLine_ofList_iff.2 (by decide)⟩

end Row

/-! ## Failures and their lines -/

/-- The lines for a record with messages. -/
def Record.rows (r : Record) : List Row :=
  .place r.line r.column :: r.errors.map Row.message

theorem Record.isOneLine_of_mem_rows {r : Record} (h : r.IsLined) {row : Row}
    (hrow : row ∈ r.rows) : IsOneLine row.text := by
  rcases List.mem_cons.1 hrow with rfl | hrow
  · exact Row.isOneLine_place r.line r.column
  · obtain ⟨message, hmessage, rfl⟩ := List.mem_map.1 hrow
    exact Row.isOneLine_message (h message hmessage)

namespace Report

/-- The lines for a failed file. -/
def rows (r : Report) : List Row :=
  .file r.path :: r.failedRecords.flatMap Record.rows

/-- The lines of the error stream. -/
def errRows (reports : List Report) : List Row :=
  let failed := reports.filter fun r => !r.passed
  failed.flatMap rows ++ if failed.isEmpty then [] else [.gap, .summary]

theorem recordLines_eq (r : Record) : recordLines r = r.rows.map Row.text := by
  rw [recordLines, Record.rows, List.map_cons, List.map_map]
  rfl

theorem failureLines_eq (r : Report) : failureLines r = r.rows.map Row.text := by
  rw [failureLines, funext recordLines_eq, rows, List.map_cons, List.map_flatMap]
  rfl

theorem errLines_eq (reports : List Report) :
    errLines reports = (errRows reports).map Row.text := by
  rw [errLines, funext failureLines_eq, errRows, List.map_append, List.map_flatMap]
  split <;> rfl

theorem isOneLine_of_mem_rows {r : Report} (h : r.IsLined) {row : Row} (hrow : row ∈ r.rows) :
    IsOneLine row.text := by
  rcases List.mem_cons.1 hrow with rfl | hrow
  · exact Row.isOneLine_file h.1
  · obtain ⟨record, hrecord, hrow⟩ := List.mem_flatMap.1 hrow
    exact Record.isOneLine_of_mem_rows (h.2 record (List.mem_filter.1 hrecord).1) hrow

theorem isOneLine_of_mem_errLines {reports : List Report} (h : ∀ r ∈ reports, r.IsLined)
    {line : String} (hline : line ∈ errLines reports) : IsOneLine line := by
  rw [errLines_eq, List.mem_map] at hline
  obtain ⟨row, hrow, rfl⟩ := hline
  rcases List.mem_append.1 hrow with hrow | hrow
  · obtain ⟨r, hr, hrow⟩ := List.mem_flatMap.1 hrow
    exact isOneLine_of_mem_rows (h r (List.mem_filter.1 hr).1) hrow
  · split at hrow
    · contradiction
    · simp only [List.mem_cons, List.not_mem_nil, or_false] at hrow
      rcases hrow with rfl | rfl
      · decide
      · exact Row.isOneLine_summary

/-! ## Reading -/

/-- What is read behind a line: messages whose place is still to come, records whose file is still
to come, and failures. -/
structure Pending where
  messages : List String
  records : List Record
  failures : List (String × List Record)

/-- What is read from a line on. -/
def Pending.add : Row → Pending → Pending
  | .file path, p => ⟨[], [], (path, p.records) :: p.failures⟩
  | .place line column, p => ⟨[], ⟨line, column, p.messages⟩ :: p.records, p.failures⟩
  | .message text, p => ⟨text :: p.messages, p.records, p.failures⟩
  | .gap, p | .summary, p => p

/-- The failures that the text of an error stream tells. -/
def readFailures (err : String) : List (String × List Record) :=
  (((linesOf err).map Row.ofLine).foldr Pending.add ⟨[], [], []⟩).failures

/-- The paths that the text of a standard stream tells. -/
def readPassed (out : String) : List String :=
  (linesOf out).map (behind "PASSED: ")

theorem foldr_add_messages (messages : List String) (p : Pending) :
    (messages.map Row.message).foldr Pending.add p =
      ⟨messages ++ p.messages, p.records, p.failures⟩ := by
  induction messages with
  | nil => rfl
  | cons message messages ih =>
      rw [List.map_cons, List.foldr_cons, ih]
      rfl

theorem foldr_add_record (r : Record) (records : List Record)
    (failures : List (String × List Record)) :
    r.rows.foldr Pending.add ⟨[], records, failures⟩ = ⟨[], r :: records, failures⟩ := by
  rw [Record.rows, List.foldr_cons, foldr_add_messages, List.append_nil]
  rfl

theorem foldr_add_records (rs records : List Record) (failures : List (String × List Record)) :
    (rs.flatMap Record.rows).foldr Pending.add ⟨[], records, failures⟩ =
      ⟨[], rs ++ records, failures⟩ := by
  induction rs with
  | nil => rfl
  | cons r rs ih =>
      rw [List.flatMap_cons, List.foldr_append, ih, foldr_add_record]
      rfl

theorem foldr_add_reports (rs : List Report) (failures : List (String × List Record)) :
    (rs.flatMap rows).foldr Pending.add ⟨[], [], failures⟩ =
      ⟨[], [], (rs.map fun r => (r.path, r.failedRecords)) ++ failures⟩ := by
  induction rs with
  | nil => rfl
  | cons r rs ih =>
      rw [List.flatMap_cons, List.foldr_append, ih, rows, List.foldr_cons, foldr_add_records,
        List.append_nil]
      rfl

theorem foldr_add_errRows (reports : List Report) :
    (errRows reports).foldr Pending.add ⟨[], [], []⟩ = ⟨[], [], failures reports⟩ := by
  have hend : ∀ c : Bool,
      (if c then [] else [Row.gap, Row.summary]).foldr Pending.add ⟨[], [], []⟩ = ⟨[], [], []⟩ := by
    intro c
    cases c <;> rfl
  rw [errRows, List.foldr_append, hend, foldr_add_reports, List.append_nil, failures]

/-- The failures are read back from the error stream. -/
theorem readFailures_err {reports : List Report} (h : ∀ r ∈ reports, r.IsLined) (verbose : Bool) :
    readFailures (renderPlain verbose reports).err = failures reports := by
  have hlines : linesOf (renderPlain verbose reports).err = errLines reports :=
    linesOf_join fun line hline => isOneLine_of_mem_errLines h hline
  have hrows : (errLines reports).map Row.ofLine = errRows reports := by
    rw [errLines_eq, List.map_map]
    exact (List.map_congr_left fun row _ => Row.ofLine_text row).trans (List.map_id _)
  rw [readFailures, hlines, hrows, foldr_add_errRows]

/-- The passed files are read back from the standard stream if it lists them. -/
theorem readPassed_out {reports : List Report} (h : ∀ r ∈ reports, r.IsLined) :
    readPassed (renderPlain true reports).out = passedPaths reports := by
  have hlines : linesOf (renderPlain true reports).out = outLines true reports := by
    refine linesOf_join fun line hline => ?_
    obtain ⟨r, hr, rfl⟩ := List.mem_map.1 hline
    exact isOneLine_append_iff.2 ⟨by decide, (h r (List.mem_filter.1 hr).1).1⟩
  rw [readPassed, hlines, outLines, if_pos rfl, List.map_map, passedPaths]
  exact List.map_congr_left fun r _ => behind_append "PASSED: " r.path

/-! ## Reports that are given as data -/

/-- The place of every failed record has few enough digits to be printed. -/
def PlacesPrintable (reports : List Report) : Prop :=
  ∀ record ∈ reports.flatMap failedRecords,
    record.line + 1 < Nat.pow 10 maxDigits ∧ record.column + 1 < Nat.pow 10 maxDigits

instance (reports : List Report) : Decidable (PlacesPrintable reports) :=
  inferInstanceAs (Decidable (∀ record ∈ reports.flatMap failedRecords,
    record.line + 1 < Nat.pow 10 maxDigits ∧ record.column + 1 < Nat.pow 10 maxDigits))

theorem isWritable_succ_iff {n : Nat} :
    isWritable ((n : Int) + 1) = true ↔ n + 1 < Nat.pow 10 maxDigits := by
  have habs : ((n : Int) + 1).natAbs = n + 1 := rfl
  rw [isWritable, habs, decide_eq_true_iff]

theorem renderGiven?_eq_some_iff {verbose : Bool} {reports : List Report} {o : Output} :
    renderGiven? verbose reports = some o ↔
      PlacesPrintable reports ∧ renderPlain verbose reports = o := by
  have hwritable : ((reports.flatMap failedRecords).all fun r =>
      (printedNumbers r).all isWritable) = true ↔ PlacesPrintable reports := by
    simp only [List.all_eq_true, printedNumbers, List.all_cons, List.all_nil, Bool.and_true,
      Bool.and_eq_true, isWritable_succ_iff, PlacesPrintable]
  rw [renderGiven?, Option.ite_none_right_eq_some, hwritable, Option.some_inj]

/-- Reports are printed just if all their places can be. Where no path and no message breaks the
line, the two streams then tell the failed files with their records and the passed ones, in order
and with nothing lost or added. And no message of an inspection breaks the line. -/
theorem renderGiven?_reads_back (verbose : Bool) (reports : List Report)
    (h : ∀ r ∈ reports, r.IsLined) :
    ((∃ o, renderGiven? verbose reports = some o) ↔ PlacesPrintable reports) ∧
      (∀ o, renderGiven? verbose reports = some o →
        readFailures o.err = failures reports ∧
          (verbose = true → readPassed o.out = passedPaths reports) ∧
            (o.err = "" ↔ ∀ r ∈ reports, r.passed = true)) ∧
        ∀ key ds records, inspect key ds = .ok records ∨ inspectGiven key ds = .ok records →
          ∀ r ∈ records, r.IsLined := by
  refine ⟨?_, ?_, ?_⟩
  · simp only [renderGiven?_eq_some_iff, exists_and_left, exists_eq', and_true]
  · intro o ho
    obtain ⟨_, rfl⟩ := renderGiven?_eq_some_iff.1 ho
    refine ⟨readFailures_err h verbose, ?_, err_renderPlain_eq_empty_iff verbose⟩
    rintro rfl
    exact readPassed_out h
  · intro key ds records hrecords
    have hinspect : inspect key ds = .ok records := hrecords.elim id inspect_of_inspectGiven
    exact isLined_inspectFrom (List.forall_mem_nil _) hinspect

/-- Paths and messages that look like lines of other kinds, or like no line at all. -/
def lookalikes : List Report :=
  [⟨" * Line 1, column 1:", []⟩,
    ⟨"FAILED: A.cs", [⟨0, 9, ["FAILED: B.cs", " * Line 1, column 1:", ""]⟩, ⟨3, 0, []⟩,
      ⟨98, 99, ["   * x"]⟩]⟩,
    ⟨"", [⟨3, 0, []⟩]⟩,
    ⟨"", [⟨0, 0, [failureSummary, "PASSED: C.cs"]⟩]⟩]

theorem renderGiven?_lookalikes :
    (∀ r ∈ lookalikes, r.IsLined) ∧
      ∃ o, renderGiven? true lookalikes = some o ∧
        readFailures o.err =
          [("FAILED: A.cs", [⟨0, 9, ["FAILED: B.cs", " * Line 1, column 1:", ""]⟩,
              ⟨98, 99, ["   * x"]⟩]),
            ("", [⟨0, 0, [failureSummary, "PASSED: C.cs"]⟩])] ∧
          readPassed o.out = [" * Line 1, column 1:", ""] ∧ o.err ≠ "" := by
  have hlined : ∀ r ∈ lookalikes, r.IsLined := by decide +kernel
  have hplaces : PlacesPrintable lookalikes := by decide +kernel
  obtain ⟨hprinted, hread, _⟩ := renderGiven?_reads_back true lookalikes hlined
  obtain ⟨o, ho⟩ := hprinted.2 hplaces
  obtain ⟨hfailures, hpassed, hempty⟩ := hread o ho
  have hfailed : ¬ ∀ r ∈ lookalikes, r.passed = true := by decide +kernel
  exact ⟨hlined, o, ho, hfailures, hpassed rfl, mt hempty.1 hfailed⟩

/-- A report of a place that is too far down to be printed. -/
def farBelow (message : String) : Report :=
  ⟨"A.cs", [⟨Nat.pow 10 maxDigits - 1, 0, [message]⟩]⟩

theorem not_forall_failures_eq_of_err_eq :
    ¬ ∀ (verbose : Bool) (rs qs : List Report), (∀ r ∈ rs, r.IsLined) → (∀ r ∈ qs, r.IsLined) →
      (renderGiven? verbose rs).map Output.err = (renderGiven? verbose qs).map Output.err →
        failures rs = failures qs := by
  intro h
  have herr : (renderGiven? false [farBelow "x"]).map Output.err =
      (renderGiven? false [farBelow "y"]).map Output.err := by
    decide +kernel
  have hdiffer : failures [farBelow "x"] ≠ failures [farBelow "y"] := by decide +kernel
  exact hdiffer (h false _ _ (by decide +kernel) (by decide +kernel) herr)

end Report
end UsingStyle
