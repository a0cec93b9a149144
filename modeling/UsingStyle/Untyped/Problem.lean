import UsingStyle.Text.Decimal

/-! # Problems with fields

A value is checked field by field, and all problems are reported together, in the order in which
the fields are declared.
-/

namespace UsingStyle.Untyped

/-- A step from a value to one of its parts. -/
inductive Step where
  | field (name : String)
  | item (index : Nat)
  deriving DecidableEq, Repr

/-- What is wrong with a value. -/
inductive Cause where
  /-- A required field is not given. -/
  | missing
  /-- The value is no integer. -/
  | notInteger
  /-- The text does not spell an integer. -/
  | notIntegerText
  /-- The text spells an integer of too many digits. -/
  | integerTooLong
  /-- The integer is below the least one. -/
  | tooSmall (least : Int)
  /-- The value is no text. -/
  | notText
  /-- The value is no list. -/
  | notList
  /-- The value has no fields of a record. -/
  | notRecord
  /-- The text is not the word of a sort key. -/
  | notSortKey
  /-- The text is refused for a reason of its own. -/
  | refused (reason : String)
  deriving DecidableEq, Repr

/-- The text of a cause. -/
def Cause.message : Cause → String
  | missing => "Field required"
  | notInteger => "Input should be a valid integer"
  | notIntegerText => "Input should be a valid integer, unable to parse string as an integer"
  | integerTooLong => "Unable to parse input string as an integer, exceeded maximum size"
  | tooSmall least => "Input should be greater than or equal to " ++ Text.integer least
  | notText => "Input should be a valid string"
  | notList => "Input should be a valid list"
  | notRecord => "Input should be a valid dictionary or instance of Record"
  | notSortKey => "Input should be 'name' or 'alias'"
  | refused reason => "Value error, " ++ reason

/-- A problem, with the way to the part that has it. -/
structure Problem where
  place : List Step
  cause : Cause
  deriving DecidableEq, Repr

/-- The same problem, seen from the value that holds the part. -/
def Problem.under (step : Step) (p : Problem) : Problem :=
  { p with place := step :: p.place }

/-- A checked value, or all its problems. -/
abbrev Checked (α : Type) := Except (List Problem) α

namespace Checked

/-- A value with a problem of its own. -/
def fail {α : Type} (cause : Cause) : Checked α :=
  .error [⟨[], cause⟩]

/-- The part of a larger value that `step` leads to. -/
def under {α : Type} (step : Step) : Checked α → Checked α
  | .ok a => .ok a
  | .error ps => .error (ps.map (Problem.under step))

/-- Two parts of a value; the problems of the first come first. -/
def both {α β : Type} : Checked α → Checked β → Checked (α × β)
  | .ok a, .ok b => .ok (a, b)
  | .ok _, .error qs => .error qs
  | .error ps, .ok _ => .error ps
  | .error ps, .error qs => .error (ps ++ qs)

/-- The items of a list, the first of which has the given index. -/
def items {α β : Type} (check : α → Checked β) : (index : Nat) → List α → Checked (List β)
  | _, [] => .ok []
  | index, a :: rest =>
    match both (under (.item index) (check a)) (items check (index + 1) rest) with
    | .ok (b, bs) => .ok (b :: bs)
    | .error ps => .error ps

end Checked
end UsingStyle.Untyped
