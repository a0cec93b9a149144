import UsingStyle.Text.Hex

/-! # Quoted source text

Source text inside a message is wrapped in double quotes. Backslashes, double quotes and control
characters are escaped, so that a quoted text never breaks the line of its message and its end can
always be told.
-/

namespace UsingStyle.Text

/-- The written form of one character inside double quotes. -/
def escapeQuoted (c : Char) : List Char :=
  match c with
  | '\\' => ['\\', '\\']
  | '"' => ['\\', '"']
  | '\n' => ['\\', 'n']
  | '\t' => ['\\', 't']
  | '\r' => ['\\', 'r']
  | '\x00' => ['\\', '0']
  | '\x07' => ['\\', 'a']
  | '\x08' => ['\\', 'b']
  | '\x0c' => ['\\', 'f']
  | '\x0b' => ['\\', 'v']
  | c => if c.toNat < 0x20 || c.toNat == 0x7F then '\\' :: 'x' :: hex 2 c.toNat else [c]

/-- The text in double quotes, on one line. -/
def quote (s : String) : String :=
  String.ofList ('"' :: s.toList.flatMap escapeQuoted ++ ['"'])

end UsingStyle.Text
