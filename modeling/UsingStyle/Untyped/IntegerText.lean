import UsingStyle.Text.Blank
import UsingStyle.Text.Decimal

/-! # Integers in fields

A field takes an integer also as text: ASCII digits with blanks around them, a plus sign in front,
a minus sign right before the digits, single underscores between digits, and a fraction of zeros.
Zeros in front are skipped together with any underscores among them, even where a minus sign
follows. The information separators do not count as blanks here.
-/

namespace UsingStyle.Untyped

/-- A blank that may surround a number. -/
def isPadding (c : Char) : Bool :=
  Text.isBlank c && !('\x1c' ≤ c && c ≤ '\x1f')

/-- The text without the padding at either end. -/
def dropPadding (cs : List Char) : List Char :=
  ((cs.dropWhile isPadding).reverse.dropWhile isPadding).reverse

/-- An ASCII digit. -/
def isAsciiDigit (c : Char) : Bool :=
  '0' ≤ c && c ≤ '9'

/-- Why a text spells no integer. -/
inductive IntegerFault where
  /-- The text is not written like an integer. -/
  | malformed
  /-- There are too many digits. -/
  | tooLong
  deriving DecidableEq, Repr

/-- The text behind a plus sign, which no minus sign may follow. -/
def dropPlus? : List Char → Option (List Char)
  | '+' :: '-' :: _ => none
  | '+' :: cs => some cs
  | cs => some cs

/-- The text behind the zeros and underscores that follow a zero; `last` is the one before `cs`. A
number goes on with another digit or a minus sign. Where a fraction follows or nothing is left, the
last of them stays. -/
def dropZeros? (last : Char) : List Char → Option (List Char)
  | [] => some [last]
  | '.' :: cs => some (last :: '.' :: cs)
  | c :: cs =>
    if c == '0' || c == '_' then dropZeros? c cs
    else if c == '-' || isAsciiDigit c then some (c :: cs)
    else none

/-- The text without the zeros in front. It has to start like a number. -/
def dropLeadingZeros? : List Char → Option (List Char)
  | [] => none
  | c :: cs =>
    if c == '0' then dropZeros? c cs
    else if c == '-' || isAsciiDigit c then some (c :: cs)
    else none

/-- The text before the first point, if only zeros follow it, and at least one. -/
def dropFraction? (cs : List Char) : Option (List Char) :=
  match cs.takeWhile (· != '.'), cs.dropWhile (· != '.') with
  | whole, [] => some whole
  | whole, _ :: fraction =>
    if !fraction.isEmpty && fraction.all (· == '0') then some whole else none

/-- Digits with single underscores between them; without the underscores. -/
def joinedDigits? : List Char → Option (List Char)
  | [] => none
  | [c] => if isAsciiDigit c then some [c] else none
  | c :: '_' :: cs => if isAsciiDigit c then (joinedDigits? cs).map (c :: ·) else none
  | c :: cs => if isAsciiDigit c then (joinedDigits? cs).map (c :: ·) else none

/-- The value of a row of ASCII digits. -/
def digitsValue (cs : List Char) : Nat :=
  cs.foldl (fun n c => n * 10 + (c.toNat - 0x30)) 0

/-- The natural number that a text without sign spells in at most `most` digits. A text that breaks
off behind more digits than that is too long as well. -/
def magnitude (most : Nat) (cs : List Char) : Except IntegerFault Nat :=
  match joinedDigits? cs with
  | some ds => if ds.length ≤ most then .ok (digitsValue ds) else .error .tooLong
  | none =>
    .error (if (cs.takeWhile isAsciiDigit).length ≤ most then .malformed else .tooLong)

/-- The integer that a text spells once padding, plus sign, zeros and fraction are gone. A minus
sign takes the place of a digit. -/
def signedInteger : List Char → Except IntegerFault Int
  | '-' :: cs => (magnitude (Text.maxDigits - 1) cs).map fun n => -(n : Int)
  | cs => (magnitude Text.maxDigits cs).map Int.ofNat

/-- The integer that a text spells. -/
def integerOfText (s : String) : Except IntegerFault Int :=
  match ((dropPlus? (dropPadding s.toList)).bind dropLeadingZeros?).bind dropFraction? with
  | some cs => signedInteger cs
  | none => .error .malformed

end UsingStyle.Untyped
