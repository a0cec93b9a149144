import UsingStyle.Untyped.IntegerText
import UsingStyle.Text.Word

/-! # Integers on the command line

An integer may have blanks around it, a sign, and single underscores between its digits, which may
be those of any script. The digits of a script are consecutive, from zero to nine.
-/

namespace UsingStyle.CommandLine

/-- The value of a decimal digit: its distance from the nearest zero below. -/
def digitValue (c : Char) : Nat :=
  if c.toNat < 0x80 then c.toNat - 0x30
  else
    match Text.digitTable.find? fun r => r.1 ≤ c.toNat && c.toNat ≤ r.2 with
    | some r => (c.toNat - r.1) % 10
    | none => 0

/-- The values of digits with single underscores between them. -/
def digitValues? : List Char → Option (List Nat)
  | [] => none
  | [c] => if Text.isDigit c then some [digitValue c] else none
  | c :: '_' :: cs =>
    if Text.isDigit c then (digitValues? cs).map (digitValue c :: ·) else none
  | c :: cs => if Text.isDigit c then (digitValues? cs).map (digitValue c :: ·) else none

/-- The natural number that digits spell. -/
def natural? (cs : List Char) : Option Nat :=
  (digitValues? cs).bind fun ds =>
    if ds.length ≤ Text.maxDigits then some (ds.foldl (fun n d => n * 10 + d) 0) else none

/-- The integer that a text spells. -/
def integer? (s : String) : Option Int :=
  match Untyped.dropPadding s.toList with
  | '-' :: cs => (natural? cs).map fun n => -(n : Int)
  | '+' :: cs => (natural? cs).map Int.ofNat
  | cs => (natural? cs).map Int.ofNat

end UsingStyle.CommandLine
