/-! # Byte-order marks

A text may start with a byte-order mark, which is no part of what it says.
-/

namespace UsingStyle.Text

/-- The text without a byte-order mark at its start. A second mark stays. -/
def dropByteOrderMark : List Char → List Char
  | '\uFEFF' :: cs => cs
  | cs => cs

end UsingStyle.Text
