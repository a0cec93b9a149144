import UsingStyle.Directive.Scan
import UsingStyle.Order
import UsingStyle.Record

/-! # Inspection

Each directive is judged by its marking and then by its place among the directives before it. The
messages are collected by place, so the result has one record for each place with a finding, in the
order of places.
-/

namespace UsingStyle

/-- The records so far, in the order of places. -/
structure Registry where
  records : List Record
  deriving DecidableEq, Repr

namespace Registry

/-- The registry without records. -/
def empty : Registry := ⟨[]⟩

/-- How many places have a record. -/
def size (r : Registry) : Nat :=
  r.records.length

/-- Adds a message at a place that is not negative. -/
def add (r : Registry) (line column : Int) (message : String) :
    Except InspectionError Registry :=
  if line < 0 then .error (.naming .negativeLine line)
  else if column < 0 then .error (.naming .negativeColumn column)
  else .ok ⟨addMessage line.toNat column.toNat message r.records⟩

/-- Adds the messages of the findings at a place, in order. -/
def addFindings (line column : Int) : Registry → List Finding → Except InspectionError Registry
  | r, [] => .ok r
  | r, f :: fs =>
    match r.add line column f.message with
    | .error e => .error e
    | .ok r => addFindings line column r fs

end Registry

/-- Inspects the directives behind those of the order, and adds to the registry. `judge` finds what
is wrong with the place of a directive. -/
def inspectFrom (judge : Order → Directive → Except InspectionError (List Finding)) :
    Order → Registry → List Directive → Except InspectionError (List Record)
  | _, r, [] => .ok r.records
  | o, r, d :: ds => do
    let marking := d.markingFinding? (Marking.ofTrivia? d.trailing)
    let r ← r.addFindings d.line d.column marking.toList
    let place ← judge o d
    let r ← r.addFindings d.line d.column place
    inspectFrom judge (o.advance d) r ds

/-- The records of the directives, which come in source order. -/
def inspect (key : SortKey) (ds : List Directive) : Except InspectionError (List Record) :=
  inspectFrom (fun o => o.findings key) .empty .empty ds

/-- The records of directives that are given as data. Their lines may be too large to be printed. -/
def inspectGiven (key : SortKey) (ds : List Directive) : Except InspectionError (List Record) :=
  inspectFrom (fun o => o.writableFindings key) .empty .empty ds

/-- The records of the directives of a source text. -/
def inspectText (key : SortKey) (text : String) : Except InspectionError (List Record) :=
  inspect key (scan text)

end UsingStyle
