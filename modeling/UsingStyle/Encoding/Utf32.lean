import UsingStyle.Encoding.Utf16

/-! # UTF-32

Units of four bytes in either order. A unit that is no character and one that breaks off at the end
become one replacement character each.
-/

namespace UsingStyle.Encoding.Utf32

/-- The value of a unit. -/
def unit (order : ByteOrder) (a b c d : UInt8) : Nat :=
  match order with
  | .little => Utf16.unit .little a b + 0x10000 * Utf16.unit .little c d
  | .big => 0x10000 * Utf16.unit .big a b + Utf16.unit .big c d

/-- The character of a unit. -/
def character (u : Nat) : Char :=
  if Utf16.isHigh u || Utf16.isLow u || 0x110000 ≤ u then replacement else Char.ofNat u

/-- The characters of the bytes. -/
def decode (order : ByteOrder) : List UInt8 → List Char
  | [] => []
  | a :: b :: c :: d :: rest => character (unit order a b c d) :: decode order rest
  | _ => [replacement]

end UsingStyle.Encoding.Utf32
