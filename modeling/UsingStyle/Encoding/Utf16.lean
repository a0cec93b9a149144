import UsingStyle.Encoding.Marked
import UsingStyle.Encoding.Utf8

/-! # UTF-16

Units of two bytes in either order. A surrogate without its partner and a unit that breaks off at
the end become one replacement character each.
-/

namespace UsingStyle.Encoding.Utf16

/-- The value of a unit. -/
def unit (order : ByteOrder) (a b : UInt8) : Nat :=
  match order with
  | .little => a.toNat + 0x100 * b.toNat
  | .big => 0x100 * a.toNat + b.toNat

/-- Whether a unit is the first of a pair. -/
def isHigh (u : Nat) : Bool :=
  0xD800 ≤ u && u < 0xDC00

/-- Whether a unit is the second of a pair. -/
def isLow (u : Nat) : Bool :=
  0xDC00 ≤ u && u < 0xE000

/-- The character of a pair. -/
def pair (high low : Nat) : Char :=
  Char.ofNat (0x10000 + 0x400 * (high - 0xD800) + (low - 0xDC00))

/-- The characters of the bytes. -/
def decode (order : ByteOrder) : List UInt8 → List Char
  | [] => []
  | [_] => [replacement]
  | a :: b :: rest =>
    let u := unit order a b
    if isHigh u then
      match rest with
      | c :: d :: rest' =>
        let v := unit order c d
        if isLow v then pair u v :: decode order rest'
        else replacement :: decode order (c :: d :: rest')
      | _ => [replacement]
    else if isLow u then replacement :: decode order rest
    else Char.ofNat u :: decode order rest

end UsingStyle.Encoding.Utf16
