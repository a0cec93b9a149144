import UsingStyle.Text.Decimal
import UsingStyle.Text.Hex

/-! # UTF-8

Two decoders. The one replaces: every maximal run of bytes that starts like a character and then
breaks off, and every byte that starts nothing, becomes one replacement character. The other stops
at the first such run or byte and says what is wrong with it.
-/

namespace UsingStyle.Encoding

/-- Stands for bytes that spell no character. -/
def replacement : Char := '\uFFFD'

namespace Utf8

/-- A character that has begun: how many bytes it still needs, between which bounds the next one
lies, and the value so far. -/
structure Pending where
  needed : Nat
  low : Nat
  high : Nat
  value : Nat
  deriving DecidableEq, Repr

/-- What a first byte begins. The bounds of the second byte rule out overlong forms, surrogates and
values that no character has. -/
def begin? (b : Nat) : Option Pending :=
  if 0xC2 ≤ b && b ≤ 0xDF then some ⟨1, 0x80, 0xBF, b - 0xC0⟩
  else if b == 0xE0 then some ⟨2, 0xA0, 0xBF, 0⟩
  else if b == 0xED then some ⟨2, 0x80, 0x9F, 0xD⟩
  else if 0xE1 ≤ b && b ≤ 0xEF then some ⟨2, 0x80, 0xBF, b - 0xE0⟩
  else if b == 0xF0 then some ⟨3, 0x90, 0xBF, 0⟩
  else if 0xF1 ≤ b && b ≤ 0xF3 then some ⟨3, 0x80, 0xBF, b - 0xF0⟩
  else if b == 0xF4 then some ⟨3, 0x80, 0x8F, 4⟩
  else none

/-- A byte between characters: what is written, and what has begun. -/
def first (b : Nat) : List Char × Option Pending :=
  if b < 0x80 then ([Char.ofNat b], none)
  else
    match begin? b with
    | some p => ([], some p)
    | none => ([replacement], none)

/-- A byte behind those of a character that has begun. -/
def next (p : Pending) (b : Nat) : List Char × Option Pending :=
  if p.low ≤ b && b ≤ p.high then
    let value := p.value * 0x40 + (b - 0x80)
    if p.needed ≤ 1 then ([Char.ofNat value], none)
    else ([], some ⟨p.needed - 1, 0x80, 0xBF, value⟩)
  else
    let (out, begun) := first b
    (replacement :: out, begun)

/-- The characters of the bytes behind a state. -/
def decodeFrom : Option Pending → List UInt8 → List Char
  | none, [] => []
  | some _, [] => [replacement]
  | none, b :: bs =>
    let (out, begun) := first b.toNat
    out ++ decodeFrom begun bs
  | some p, b :: bs =>
    let (out, begun) := next p b.toNat
    out ++ decodeFrom begun bs

/-- The characters of the bytes. -/
def decode (bs : List UInt8) : List Char :=
  decodeFrom none bs

/-- The characters of the bytes without a byte-order mark in front. A mark that breaks off at the
end of the bytes is dropped as well. -/
def decodeMarked : List UInt8 → List Char
  | [0xEF] => []
  | [0xEF, 0xBB] => []
  | 0xEF :: 0xBB :: 0xBF :: bs => decode bs
  | bs => decode bs

/-! ## Faults -/

/-- What is wrong with bytes that spell no character. -/
inductive Defect where
  /-- The byte starts no character. -/
  | start
  /-- A character breaks off before another byte. -/
  | continuation
  /-- A character breaks off at the end of the bytes. -/
  | ending
  deriving DecidableEq, Repr

/-- The words for a defect. -/
def Defect.words : Defect → String
  | start => "invalid start byte"
  | continuation => "invalid continuation byte"
  | ending => "unexpected end of data"

/-- The bytes that spell no character: where they start, the first of them, and how many there
are. -/
structure Fault where
  position : Nat
  byte : UInt8
  length : Nat
  defect : Defect
  deriving DecidableEq, Repr

/-- The text of the error. -/
def Fault.message (f : Fault) : String :=
  let place :=
    if f.length == 1 then
      "byte 0x" ++ String.ofList (Text.hex 2 f.byte.toNat) ++ " in position " ++
        Text.natural f.position
    else
      "bytes in position " ++ Text.natural f.position ++ "-" ++
        Text.natural (f.position + f.length - 1)
  "'utf-8' codec can't decode " ++ place ++ ": " ++ f.defect.words

/-- A character that has begun, with its place and its first byte. -/
structure Begun where
  position : Nat
  byte : UInt8
  pending : Pending
  deriving DecidableEq, Repr

/-- The fault of a character that breaks off before the byte at `position`. -/
def Begun.fault (b : Begun) (position : Nat) (defect : Defect) : Fault :=
  ⟨b.position, b.byte, position - b.position, defect⟩

/-- The first fault of the bytes behind a state; `position` is the place of the next byte. -/
def faultFrom? : (position : Nat) → Option Begun → List UInt8 → Option Fault
  | _, none, [] => none
  | position, some begun, [] => some (begun.fault position .ending)
  | position, none, b :: bs =>
    if b.toNat < 0x80 then faultFrom? (position + 1) none bs
    else
      match begin? b.toNat with
      | some p => faultFrom? (position + 1) (some ⟨position, b, p⟩) bs
      | none => some ⟨position, b, 1, .start⟩
  | position, some begun, b :: bs =>
    let p := begun.pending
    if p.low ≤ b.toNat && b.toNat ≤ p.high then
      if p.needed ≤ 1 then faultFrom? (position + 1) none bs
      else
        faultFrom? (position + 1) (some { begun with pending := ⟨p.needed - 1, 0x80, 0xBF, 0⟩ }) bs
    else some (begun.fault position .continuation)

/-- The characters of bytes without fault, or the first fault. -/
def decodeStrict (bs : List UInt8) : Except Fault (List Char) :=
  match faultFrom? 0 none bs with
  | some fault => .error fault
  | none => .ok (decode bs)

end Utf8
end UsingStyle.Encoding
