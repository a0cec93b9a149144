import UsingStyle.Untyped.Check
import UsingStyle.Report

/-! # Records and reports from loosely typed fields

Fields that are not declared are ignored.
-/

namespace UsingStyle

open Untyped

/-- A record from its fields: `line` and `column`, and `errors` unless there are none. -/
def Record.ofFields (fields : List (String × Value)) : Checked Record :=
  let line := required fields "line" natural
  let column := required fields "column" natural
  let errors := optional fields "errors" [] (listOf text)
  (Checked.both line (Checked.both column errors)).map fun (line, column, errors) =>
    ⟨line, column, errors⟩

/-- A record from a value with fields. -/
def Record.ofValue : Value → Checked Record
  | .object fields => Record.ofFields fields
  | _ => .fail .notRecord

/-- A report from its fields: `path`, and `records` unless there are none. -/
def Report.ofFields (fields : List (String × Value)) : Checked Report :=
  let path := required fields "path" text
  let records := optional fields "records" [] (listOf Record.ofValue)
  (Checked.both path records).map fun (path, records) => ⟨path, records⟩

end UsingStyle
