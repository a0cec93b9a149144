import UsingStyle.Codecs
import UsingStyle.Encoding.SingleByte
import UsingStyle.Encoding.Utf32

/-! # Common encodings

The encodings that are written out here are those of Unicode, three of one byte per character, and
two that refuse every text. A system knows many more, such as the other code pages and those of
Chinese, Japanese and Korean; these codecs are one choice of what a name can stand for.

Encodings are named loosely: case does not matter, and whatever is neither an ASCII letter or digit
nor a dot only separates. Some names belong to transformations that do not turn bytes into text.
The decoders written out here replace what they cannot read. They refuse only a text of UTF-16 or
UTF-32 without its byte-order mark, and any text at all in the encodings `undefined` and `idna`.
-/

namespace UsingStyle

/-- An encoding of text. -/
inductive Encoding where
  | utf8
  | utf8Marked
  | latin1
  | ascii
  | utf16
  | utf16Little
  | utf16Big
  | utf32
  | utf32Little
  | utf32Big
  | codePage1252
  /-- The encoding that refuses every text. -/
  | undefined
  /-- The encoding of internationalized domain names. It knows no way of replacing. -/
  | idna
  deriving DecidableEq, Repr

namespace Encoding

/-- What a common name stands for. -/
inductive Named where
  /-- An encoding of text. -/
  | text (encoding : Encoding)
  /-- A transformation that is no encoding of text. -/
  | transform
  deriving DecidableEq, Repr

/-- The main names. -/
def mainNames : List (String × Named) :=
  [("utf_8", .text utf8), ("utf_8_sig", .text utf8Marked), ("latin_1", .text latin1),
   ("ascii", .text ascii), ("utf_16", .text utf16), ("utf_16_le", .text utf16Little),
   ("utf_16_be", .text utf16Big), ("utf_32", .text utf32), ("utf_32_le", .text utf32Little),
   ("utf_32_be", .text utf32Big), ("cp1252", .text codePage1252), ("undefined", .text undefined),
   ("idna", .text idna), ("hex_codec", .transform), ("rot_13", .transform),
   ("base64_codec", .transform), ("bz2_codec", .transform), ("quopri_codec", .transform),
   ("uu_codec", .transform), ("zlib_codec", .transform)]

/-- The other names. -/
def otherNames : List (String × Named) :=
  [("u8", .text utf8), ("utf", .text utf8), ("utf8", .text utf8), ("utf8_ucs2", .text utf8),
   ("utf8_ucs4", .text utf8), ("cp65001", .text utf8), ("8859", .text latin1),
   ("cp819", .text latin1), ("csisolatin1", .text latin1), ("ibm819", .text latin1),
   ("iso8859", .text latin1), ("iso8859_1", .text latin1), ("iso_8859_1", .text latin1),
   ("iso_8859_1_1987", .text latin1), ("iso_ir_100", .text latin1), ("l1", .text latin1),
   ("latin", .text latin1), ("latin1", .text latin1), ("646", .text ascii),
   ("ansi_x3.4_1968", .text ascii), ("ansi_x3_4_1968", .text ascii),
   ("ansi_x3.4_1986", .text ascii), ("cp367", .text ascii), ("csascii", .text ascii),
   ("ibm367", .text ascii), ("iso646_us", .text ascii), ("iso_646.irv_1991", .text ascii),
   ("iso_ir_6", .text ascii), ("us", .text ascii), ("us_ascii", .text ascii),
   ("u16", .text utf16), ("utf16", .text utf16), ("unicodelittleunmarked", .text utf16Little),
   ("utf_16le", .text utf16Little), ("unicodebigunmarked", .text utf16Big),
   ("utf_16be", .text utf16Big), ("u32", .text utf32), ("utf32", .text utf32),
   ("utf_32le", .text utf32Little), ("utf_32be", .text utf32Big), ("1252", .text codePage1252),
   ("windows_1252", .text codePage1252), ("hex", .transform), ("rot13", .transform),
   ("base64", .transform), ("base_64", .transform), ("bz2", .transform), ("quopri", .transform),
   ("quoted_printable", .transform), ("quotedprintable", .transform), ("uu", .transform),
   ("zip", .transform), ("zlib", .transform)]

/-- A character that belongs to a name. -/
def isNamePart (c : Char) : Bool :=
  c.isAlphanum || c == '.'

/-- The parts of a name, joined by single underscores and in lower case. `started` says that a part
was written, and `waiting` that a separator stands behind it. -/
def normalizeFrom : (started waiting : Bool) → List Char → List Char
  | _, _, [] => []
  | started, waiting, c :: cs =>
    if isNamePart c then
      (if waiting && started then ['_'] else []) ++ c.toLower :: normalizeFrom true false cs
    else normalizeFrom started true cs

/-- The form of a name in which names are compared. -/
def normalize (name : String) : String :=
  String.ofList (normalizeFrom false false name.toList)

/-- What a name stands for, if it is common. -/
def lookup? (name : String) : Option Named :=
  let normal := normalize name
  let dotless := String.ofList (normal.toList.map fun c => if c == '.' then '_' else c)
  otherNames.lookup normal <|> otherNames.lookup dotless <|> mainNames.lookup normal

/-- The characters that the bytes spell, or the words with which they are refused. -/
def decode : Encoding → List UInt8 → Except String (List Char)
  | utf8, bs => .ok (Utf8.decode bs)
  | utf8Marked, bs => .ok (Utf8.decodeMarked bs)
  | latin1, bs => .ok (bs.map SingleByte.latin1)
  | ascii, bs => .ok (bs.map SingleByte.ascii)
  | utf16, bs => decodeMarked "UTF-16" [0xFF, 0xFE] Utf16.decode bs
  | utf16Little, bs => .ok (Utf16.decode .little bs)
  | utf16Big, bs => .ok (Utf16.decode .big bs)
  | utf32, bs => decodeMarked "UTF-32" [0xFF, 0xFE, 0x00, 0x00] Utf32.decode bs
  | utf32Little, bs => .ok (Utf32.decode .little bs)
  | utf32Big, bs => .ok (Utf32.decode .big bs)
  | codePage1252, bs => .ok (bs.map SingleByte.codePage1252)
  | undefined, _ => .error "undefined encoding"
  | idna, _ => .error "Unsupported error handling replace"

/-- The codec of a common name. -/
def Named.codec : Named → Codec
  | text encoding => .text encoding.decode
  | transform => .transform

/-- The text with every line break as a line feed. -/
def unifyBreaks : List Char → List Char
  | [] => []
  | '\r' :: '\n' :: cs => '\n' :: unifyBreaks cs
  | '\r' :: cs => '\n' :: unifyBreaks cs
  | c :: cs => c :: unifyBreaks cs

end Encoding

/-- The common encodings and transformations. -/
def Codecs.common : Codecs where
  lookup? name := (Encoding.lookup? name).map Encoding.Named.codec

end UsingStyle
