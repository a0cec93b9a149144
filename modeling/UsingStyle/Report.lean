import UsingStyle.Record

/-! # Reports

The report of a file holds the records of its inspection. A file passes when no record has a
message.
-/

namespace UsingStyle

/-- The result of inspecting one file. -/
structure Report where
  path : String
  records : List Record
  deriving DecidableEq, Repr, Inhabited

namespace Report

/-- Whether no record has a message. -/
def passed (r : Report) : Bool :=
  r.records.all fun record => !record.isFailed

/-- The records with a message. -/
def failedRecords (r : Report) : List Record :=
  r.records.filter Record.isFailed

end Report
end UsingStyle
