import UsingStyle.Text.Blank
import UsingStyle.Text.Word
import UsingStyle.Token

/-! # Lexemes

The first lexeme of a text is found in two steps, each of which reads from left to right. The
opening characters decide what it is: a bounded look ahead and the length of the leading runs of
`$` and `"` are enough. The rest of the lexeme is then a number of further characters. A comment or
literal that is never closed runs to the end of the text, or of the line where it may not hold a
line break, so every text has a first lexeme.
-/

namespace UsingStyle.Lexeme

open Text

/-- How many characters at the front of `cs` satisfy `p` in a row. -/
def run (p : Char → Bool) (cs : List Char) : Nat :=
  (cs.takeWhile p).length

theorem run_le_length (p : Char → Bool) (cs : List Char) : run p cs ≤ cs.length :=
  (List.takeWhile_sublist p).length_le

/-! ## Openings -/

/-- The opening of a lexeme. A number is the count of characters that belong to the opening. -/
inductive Opening where
  | lineBreak (lead : Nat)
  | blank
  | lineComment
  | blockComment
  | preprocessor
  | rawString (lead : Nat)
  | verbatimString (lead : Nat)
  | string (lead : Nat)
  | char
  | identifier (lead : Nat)
  | number
  | symbol (lead : Nat)
  deriving DecidableEq, Repr

namespace Opening

/-- How many characters belong to the opening. -/
def lead : Opening → Nat
  | lineBreak n | rawString n | verbatimString n | string n | identifier n | symbol n => n
  | lineComment | blockComment => 2
  | blank | preprocessor | char | number => 1

/-- The kind of token that the opening starts. -/
def kind : Opening → TokenKind
  | lineBreak _ => .newline
  | blank => .whitespace
  | lineComment => .lineComment
  | blockComment => .blockComment
  | preprocessor => .preprocessor
  | rawString _ | verbatimString _ | string _ => .string
  | char => .char
  | identifier _ => .identifier
  | number => .number
  | symbol _ => .punctuation

/-- The opening that a single character decides. -/
def ofChar (c : Char) : Opening :=
  if isInlineBlank c then blank
  else if isWordStart c then identifier 1
  else if isDigit c then number
  else symbol 1

/-- The opening of a text that does not start with a raw string. -/
def ofFront : List Char → Opening
  | '\r' :: '\n' :: _ => lineBreak 2
  | '\r' :: _ | '\n' :: _ => lineBreak 1
  | '/' :: '/' :: _ => lineComment
  | '/' :: '*' :: _ => blockComment
  | '$' :: '@' :: '"' :: _ | '@' :: '$' :: '"' :: _ => verbatimString 3
  | '@' :: '"' :: _ => verbatimString 2
  | '$' :: '"' :: _ => string 2
  | '"' :: _ => string 1
  | '\'' :: _ => char
  | '@' :: c :: _ => if isWordStart c then identifier 2 else symbol 1
  | ':' :: ':' :: _ => symbol 2
  | c :: _ => ofChar c
  | [] => symbol 0

/-- The opening of a text. `fresh` says that only blanks precede it on its line, so that `#` starts
a preprocessor line. Any number of `$` before three or more `"` opens a raw string. -/
def ofText (fresh : Bool) (cs : List Char) : Opening :=
  if fresh && cs.head? == some '#' then preprocessor
  else
    let dollars := run (· == '$') cs
    let quotes := run (· == '"') (cs.drop dollars)
    if 3 ≤ quotes then rawString (dollars + quotes) else ofFront cs

end Opening

/-! ## Remainders -/

/-- The characters up to the end of the first `*/`. -/
def blockCommentRest : List Char → Nat
  | '*' :: '/' :: _ => 2
  | _ :: cs => blockCommentRest cs + 1
  | [] => 0

/-- The characters up to the end of the first run of three or more `"`. -/
def rawStringRest : List Char → Nat
  | '"' :: '"' :: '"' :: cs => run (· == '"') cs + 3
  | _ :: cs => rawStringRest cs + 1
  | [] => 0

/-- The characters up to the first `"` that is not doubled. -/
def verbatimStringRest : List Char → Nat
  | '"' :: '"' :: cs => verbatimStringRest cs + 2
  | '"' :: _ => 1
  | _ :: cs => verbatimStringRest cs + 1
  | [] => 0

/-- The characters up to the first `delimiter` that no backslash escapes, and at most up to a line
break that no backslash escapes. A backslash at the very end of the text escapes nothing and stays
outside. -/
def escapedRest (delimiter : Char) : List Char → Nat
  | '\\' :: _ :: cs => escapedRest delimiter cs + 2
  | c :: cs =>
    if c == delimiter then 1
    else if c == '\\' || isBreak c then 0
    else escapedRest delimiter cs + 1
  | [] => 0

/-- The further word characters of a number, with one fraction that starts with a digit. -/
def numberRest (cs : List Char) : Nat :=
  let whole := run isWord cs
  match cs.drop whole with
  | '.' :: d :: ds => if isDigit d then whole + 2 + run isWord ds else whole
  | _ => whole

/-- How many characters of the text behind an opening belong to the lexeme. -/
def rest : Opening → List Char → Nat
  | .lineBreak _, _ | .symbol _, _ => 0
  | .blank, cs => run isInlineBlank cs
  | .lineComment, cs | .preprocessor, cs => run (fun c => !isBreak c) cs
  | .blockComment, cs => blockCommentRest cs
  | .rawString _, cs => rawStringRest cs
  | .verbatimString _, cs => verbatimStringRest cs
  | .string _, cs => escapedRest '"' cs
  | .char, cs => escapedRest '\'' cs
  | .identifier _, cs => run isWord cs
  | .number, cs => numberRest cs

/-! ## The first lexeme -/

/-- How many characters the first lexeme has, given its opening. -/
def length (o : Opening) (cs : List Char) : Nat :=
  o.lead + rest o (cs.drop o.lead)

theorem Opening.lead_ofChar_pos (c : Char) : 0 < (ofChar c).lead := by
  unfold ofChar
  split
  · decide
  · split
    · decide
    · split <;> decide

theorem Opening.lead_ofFront_pos (c : Char) (cs : List Char) : 0 < (ofFront (c :: cs)).lead := by
  unfold ofFront
  split
  case h_12 => split <;> decide
  case h_14 => exact lead_ofChar_pos _
  case h_15 => contradiction
  all_goals decide

theorem Opening.lead_ofText_pos (fresh : Bool) (c : Char) (cs : List Char) :
    0 < (ofText fresh (c :: cs)).lead := by
  unfold ofText
  split
  · decide
  · dsimp only
    split
    · simp only [lead]; omega
    · exact lead_ofFront_pos c cs

/-- The first lexeme of a text that is not empty has a character. -/
theorem length_pos (fresh : Bool) (c : Char) (cs : List Char) :
    0 < length (Opening.ofText fresh (c :: cs)) (c :: cs) :=
  Nat.add_pos_left (Opening.lead_ofText_pos fresh c cs) _

end UsingStyle.Lexeme
