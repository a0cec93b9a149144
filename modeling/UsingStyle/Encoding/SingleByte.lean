import UsingStyle.Encoding.Utf8

/-! # Encodings of one byte per character -/

namespace UsingStyle.Encoding.SingleByte

/-- The character of a byte whose value is its code point. -/
def latin1 (b : UInt8) : Char :=
  Char.ofNat b.toNat

/-- The character of a seven-bit byte. -/
def ascii (b : UInt8) : Char :=
  if b.toNat < 0x80 then Char.ofNat b.toNat else replacement

/-- The characters of the bytes from `0x80` to `0x9F` in code page 1252. -/
def codePage1252Table : List Char :=
  ['€', '\uFFFD', '‚', 'ƒ', '„', '…', '†', '‡', 'ˆ', '‰', 'Š', '‹', 'Œ', '\uFFFD', 'Ž', '\uFFFD',
   '\uFFFD', '‘', '’', '“', '”', '•', '–', '—', '˜', '™', 'š', '›', 'œ', '\uFFFD', 'ž', 'Ÿ']

/-- The character of a byte in code page 1252, where five bytes have none. -/
def codePage1252 (b : UInt8) : Char :=
  if b.toNat < 0x80 then Char.ofNat b.toNat
  else codePage1252Table.getD (b.toNat - 0x80) (Char.ofNat b.toNat)

end UsingStyle.Encoding.SingleByte
