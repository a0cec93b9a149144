/-! # Decimal numerals

Whole numbers, written in base ten without leading zeros. Numerals have any length; where a length
has to be kept within bounds, the bound is `maxDigits`.
-/

namespace UsingStyle.Text

/-- The decimal digits of `n`, the most significant first. -/
def digits (n : Nat) : List Char :=
  if n < 10 then [Char.ofNat (0x30 + n)]
  else digits (n / 10) ++ [Char.ofNat (0x30 + n % 10)]

/-- The numeral of a natural number. -/
def natural (n : Nat) : String :=
  String.ofList (digits n)

/-- The numeral of an integer, a negative one with a leading minus sign. -/
def integer : Int → String
  | .ofNat n => natural n
  | .negSucc n => "-" ++ natural (n + 1)

/-- The most digits of a number that is read from a text or printed for a reader. -/
def maxDigits : Nat := 4300

/-- Whether a number has at most `maxDigits` digits. -/
def isWritable (n : Int) : Bool :=
  n.natAbs < Nat.pow 10 maxDigits

/-- What is said about a number that has too many digits to be printed. -/
def notWritable : String :=
  "Exceeds the limit (4300 digits) for integer string conversion; " ++
    "use sys.set_int_max_str_digits() to increase the limit"

end UsingStyle.Text
