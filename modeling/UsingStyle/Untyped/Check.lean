import UsingStyle.Untyped.IntegerText
import UsingStyle.Untyped.Problem
import UsingStyle.Untyped.Value

/-! # Checks of fields

The kinds of fields that records and reports have.
-/

namespace UsingStyle.Untyped

/-- An integer that is at least `least`. -/
def atLeast (least n : Int) : Checked Int :=
  if n < least then .fail (.tooSmall least) else .ok n

/-- An integer of at least `least`, spelt by a text. -/
def integerText (least : Int) (s : String) : Checked Int :=
  match integerOfText s with
  | .ok n => atLeast least n
  | .error .malformed => .fail .notIntegerText
  | .error .tooLong => .fail .integerTooLong

/-- A natural number: an integer, a truth value as zero or one, or a text that spells one. -/
def natural : Value → Checked Nat
  | .int n => (atLeast 0 n).map Int.toNat
  | .bool b => .ok b.toNat
  | .text s => (integerText 0 s).map Int.toNat
  | .null | .list _ | .object _ => .fail .notInteger

/-- A text. -/
def text : Value → Checked String
  | .text s => .ok s
  | _ => .fail .notText

/-- A list of values that each pass `check`. -/
def listOf {α : Type} (check : Value → Checked α) : Value → Checked (List α)
  | .list vs => Checked.items check 0 vs
  | _ => .fail .notList

/-- A field that has to be given. -/
def required {α : Type} (fields : List (String × Value)) (name : String)
    (check : Value → Checked α) : Checked α :=
  Checked.under (.field name) <|
    match lookup fields name with
    | some v => check v
    | none => .fail .missing

/-- A field that may be left out. -/
def optional {α : Type} (fields : List (String × Value)) (name : String) (absent : α)
    (check : Value → Checked α) : Checked α :=
  match lookup fields name with
  | some v => Checked.under (.field name) (check v)
  | none => .ok absent

end UsingStyle.Untyped
