/-! # Loosely typed values

Records and reports may be given as data without types. Which values a field accepts is said where
the field is read.
-/

namespace UsingStyle.Untyped

/-- A value without a declared type. -/
inductive Value where
  | null
  | bool (b : Bool)
  | int (n : Int)
  | text (s : String)
  | list (items : List Value)
  | object (fields : List (String × Value))
  deriving Repr, Inhabited

/-- The value of a field, if it is given. -/
def lookup (fields : List (String × Value)) (name : String) : Option Value :=
  (fields.find? fun f => f.1 == name).map Prod.snd

end UsingStyle.Untyped
