import UsingStyle.Proofs.Inspection.Misplaced
import UsingStyle.Proofs.Json.Reading

/-! # JSON reports are read back

The JSON text of reports is read as an array with one object for each report, whose members are the
fields in order. Checking these fields gives the reports again, so two lists of reports never share
a text.
-/

namespace UsingStyle

open Untyped

/-! ## Reports as values -/

/-- The fields of a record, in the order of their declaration. -/
def Record.toFields (r : Record) : List (String × Value) :=
  [("line", .int r.line), ("column", .int r.column), ("errors", .list (r.errors.map .text))]

/-- A record as a value. -/
def Record.toValue (r : Record) : Value :=
  .object r.toFields

theorem Record.ofValue_toValue (r : Record) : Record.ofValue r.toValue = .ok r :=
  Record.ofFields_of_nonneg (Int.natCast_nonneg r.line) (Int.natCast_nonneg r.column) r.errors

namespace Report

/-- The fields of a report, in the order of their declaration. -/
def toFields (r : Report) : List (String × Value) :=
  [("path", .text r.path), ("records", .list (r.records.map Record.toValue))]

/-- A report as a value. -/
def toValue (r : Report) : Value :=
  .object r.toFields

theorem ofFields_toFields (r : Report) : ofFields r.toFields = .ok r := by
  have hrecords : Checked.items Record.ofValue 0 (r.records.map Record.toValue) = .ok r.records :=
    items_map Record.ofValue_toValue 0 r.records
  simp [ofFields, toFields, required, Untyped.optional, lookup, text, listOf, Checked.under,
    Checked.both, hrecords, Except.map]

/-! ## Written reports -/

end Report

theorem Json.Writes.array_map {α : Type} {f : α → String} {g : α → Value}
    (h : ∀ a, Json.Writes (f a) (g a)) (depth : Nat) (as : List α) :
    Json.Writes (Json.array depth (as.map f)) (.list (as.map g)) := by
  refine .array depth ?_
  rw [List.forall₂_map_left_iff, List.forall₂_map_right_iff]
  exact List.forall₂_same.2 fun a _ => h a

theorem Record.writes_toJson (depth : Nat) (r : Record) :
    Json.Writes (r.toJson depth) r.toValue :=
  .object depth <|
    .cons ⟨rfl, .natural r.line⟩ <|
    .cons ⟨rfl, .natural r.column⟩ <|
    .cons ⟨rfl, .array_map .string (depth + 1) r.errors⟩ .nil

namespace Report

theorem writes_toJson (depth : Nat) (r : Report) : Json.Writes (r.toJson depth) r.toValue :=
  .object depth <|
    .cons ⟨rfl, .string r.path⟩ <|
    .cons ⟨rfl, .array_map (Record.writes_toJson (depth + 2)) (depth + 1) r.records⟩ .nil

theorem read?_renderJson (reports : List Report) :
    Json.read? (renderJson reports) = some (.list (reports.map toValue)) :=
  Json.read?_of_writes (.array_map (writes_toJson 1) 0 reports)

/-! ## Reading -/

/-- The report that a value with fields tells. -/
def ofValue? : Value → Option Report
  | .object fields => (ofFields fields).toOption
  | _ => none

/-- The reports that a JSON text tells. -/
def ofJson? (s : String) : Option (List Report) :=
  match Json.read? s with
  | some (.list vs) => vs.mapM ofValue?
  | _ => none

theorem mapM_ofValue?_toValue (reports : List Report) :
    (reports.map toValue).mapM ofValue? = some reports := by
  induction reports with
  | nil => rfl
  | cons r reports ih =>
      have hr : ofValue? r.toValue = some r := by
        rw [toValue, ofValue?, ofFields_toFields]
        rfl
      rw [List.map_cons, List.mapM_cons, hr, ih]
      rfl

theorem ofJson?_renderJson (reports : List Report) :
    ofJson? (renderJson reports) = some reports := by
  rw [ofJson?, read?_renderJson]
  exact mapM_ofValue?_toValue reports

/-- The text of reports is one JSON value: the array of the reports with their fields in order. The
reports are read from it as they were, and different reports have different texts. -/
theorem renderJson_reads_back (rs qs : List Report) :
    Json.read? (renderJson rs) = some (.list (rs.map toValue)) ∧
      ofJson? (renderJson rs) = some rs ∧ (renderJson rs = renderJson qs ↔ rs = qs) := by
  refine ⟨read?_renderJson rs, ofJson?_renderJson rs, fun h => ?_, congrArg renderJson⟩
  have hread : some rs = some qs := by
    rw [← ofJson?_renderJson rs, h, ofJson?_renderJson qs]
  exact Option.some.inj hread

end Report
end UsingStyle
