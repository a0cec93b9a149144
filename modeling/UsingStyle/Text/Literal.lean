import UsingStyle.Text.Hex
import UsingStyle.Text.Printable

/-! # Literals in messages

A value that came from the user (a path, a setting, an argument) is shown as a literal: in single
quotes, or in double quotes when it holds a single quote and no double quote. The quote in use, the
backslash and every unprintable character are escaped.
-/

namespace UsingStyle.Text

/-- The quote around the literal of `s`. -/
def literalQuote (s : List Char) : Char :=
  if s.contains '\'' && !s.contains '"' then '"' else '\''

/-- The written form of one character inside a literal in the quotes `q`. -/
def escapeLiteral (q c : Char) : List Char :=
  if c == q || c == '\\' then ['\\', c]
  else if c == '\n' then ['\\', 'n']
  else if c == '\r' then ['\\', 'r']
  else if c == '\t' then ['\\', 't']
  else if isPrintable c then [c]
  else if c.toNat < 0x100 then '\\' :: 'x' :: hex 2 c.toNat
  else if c.toNat < 0x10000 then '\\' :: 'u' :: hex 4 c.toNat
  else '\\' :: 'U' :: hex 8 c.toNat

/-- The text as a quoted literal of printable characters. -/
def literal (s : String) : String :=
  let q := literalQuote s.toList
  String.ofList (q :: s.toList.flatMap (escapeLiteral q) ++ [q])

end UsingStyle.Text
