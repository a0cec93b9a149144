/-! # Records

A record holds all messages at one place of a source. Lines and columns count from zero.
-/

namespace UsingStyle

/-- The messages at one place of a source. -/
structure Record where
  line : Nat
  column : Nat
  errors : List String
  deriving DecidableEq, Repr, Inhabited

namespace Record

/-- Whether the record has a message. -/
def isFailed (r : Record) : Bool :=
  !r.errors.isEmpty

/-- Whether the record stands at the given place. -/
def isAt (r : Record) (line column : Nat) : Bool :=
  r.line == line && r.column == column

/-- Whether the given place precedes the record. -/
def isAfter (r : Record) (line column : Nat) : Bool :=
  line < r.line || (line == r.line && column < r.column)

end Record

/-- Adds a message at a place: to the end of its record if there is one, and otherwise as a new
record where the order of places puts it. -/
def addMessage (line column : Nat) (message : String) : List Record → List Record
  | [] => [⟨line, column, [message]⟩]
  | r :: rs =>
    if r.isAt line column then { r with errors := r.errors ++ [message] } :: rs
    else if r.isAfter line column then ⟨line, column, [message]⟩ :: r :: rs
    else r :: addMessage line column message rs

end UsingStyle
