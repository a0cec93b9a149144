/-! # Byte-order marks

Encodings with units of several bytes can write a unit in either order. A mark at the front tells
which: read backwards, it is the mark of the other order.
-/

namespace UsingStyle.Encoding

/-- Which byte of a unit comes first. -/
inductive ByteOrder where
  | little
  | big
  deriving DecidableEq, Repr

/-- The characters of the bytes behind the mark that tells their order. Bytes that are enough for a
mark and do not start with one are refused. -/
def decodeMarked (name : String) (mark : List UInt8) (decode : ByteOrder → List UInt8 → List Char)
    (bytes : List UInt8) : Except String (List Char) :=
  if bytes.take mark.length = mark then .ok (decode .little (bytes.drop mark.length))
  else if bytes.take mark.length = mark.reverse then .ok (decode .big (bytes.drop mark.length))
  else if mark.length ≤ bytes.length then .error (name ++ " stream does not start with BOM")
  else .ok (decode .little bytes)

end UsingStyle.Encoding
