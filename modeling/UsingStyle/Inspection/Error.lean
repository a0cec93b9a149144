import UsingStyle.Text.Decimal

/-! # Errors of an inspection -/

namespace UsingStyle

/-- Why an inspection cannot go on. No reason is a finding: each tells that the directives, or what
is remembered of them, do not come from a source. -/
inductive InspectionError where
  /-- The remembered aliased directive has no alias. -/
  | aliasMissing
  /-- The remembered non-aliased directive has an alias. -/
  | aliasUnexpected
  /-- A finding stands on a negative line. -/
  | negativeLine (line : Int)
  /-- A finding stands in a negative column. -/
  | negativeColumn (column : Int)
  /-- A number that a message has to name has too many digits to be printed. -/
  | lineTooLong
  deriving DecidableEq, Repr

/-- The error about a number, provided that the number can be printed. -/
def InspectionError.naming (error : Int → InspectionError) (n : Int) : InspectionError :=
  if Text.isWritable n then error n else lineTooLong

/-- The text of the error. -/
def InspectionError.message : InspectionError → String
  | aliasMissing => "Unexpected previous_aliased.alias None"
  | aliasUnexpected => "Unexpected previous_non_aliased.alias not None"
  | negativeLine line => "Negative line: " ++ Text.integer line
  | negativeColumn column => "Negative column: " ++ Text.integer column
  | lineTooLong => Text.notWritable

end UsingStyle
