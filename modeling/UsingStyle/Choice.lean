import UsingStyle.Text.Literal

/-! # Choices by word

A choice among a few named values is read from its word, and a word that names none of them is an
error that shows it.
-/

namespace UsingStyle

/-- A word that names no value of a family. -/
structure InvalidChoice where
  value : String
  family : String
  deriving DecidableEq, Repr

/-- The text of the error. -/
def InvalidChoice.message (e : InvalidChoice) : String :=
  Text.literal e.value ++ " is not a valid " ++ e.family

/-- The value with the given word. -/
def chooseByWord {α : Type} (family : String) (word : α → String) (values : List α) (s : String) :
    Except InvalidChoice α :=
  match values.find? fun a => word a == s with
  | some a => .ok a
  | none => .error ⟨s, family⟩

end UsingStyle
