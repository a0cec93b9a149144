/-! # Tokens

A source text is a sequence of tokens. Each token knows its kind, its characters and where it
starts; line and column count from zero, and so does the offset in characters.
-/

namespace UsingStyle

/-- What a token is. -/
inductive TokenKind where
  | newline
  | whitespace
  | lineComment
  | blockComment
  | preprocessor
  | string
  | char
  | identifier
  | number
  | punctuation
  deriving DecidableEq, Repr, Inhabited

/-- Trivia separates the tokens that carry meaning. -/
def TokenKind.isTrivia : TokenKind → Bool
  | .newline | .whitespace | .lineComment | .blockComment | .preprocessor => true
  | .string | .char | .identifier | .number | .punctuation => false

/-- A place between two characters of a source text. -/
structure Position where
  line : Nat
  column : Nat
  offset : Nat
  deriving DecidableEq, Repr, Inhabited

namespace Position

/-- The place before the first character. -/
def start : Position := ⟨0, 0, 0⟩

/-- The place after one more character of the same line. -/
def right (p : Position) : Position :=
  ⟨p.line, p.column + 1, p.offset + 1⟩

/-- The place after a line break of `width` characters. -/
def down (p : Position) (width : Nat) : Position :=
  ⟨p.line + 1, 0, p.offset + width⟩

/-- The place after the characters of one token. A carriage return and the line feed behind it are
one line break. -/
def advance (p : Position) : List Char → Position
  | [] => p
  | '\r' :: '\n' :: cs => (p.down 2).advance cs
  | '\r' :: cs => (p.down 1).advance cs
  | '\n' :: cs => (p.down 1).advance cs
  | _ :: cs => p.right.advance cs

@[simp] theorem advance_nil (p : Position) : p.advance [] = p := rfl

@[simp] theorem offset_right (p : Position) : p.right.offset = p.offset + 1 := rfl

@[simp] theorem offset_down (p : Position) (width : Nat) :
    (p.down width).offset = p.offset + width := rfl

@[simp] theorem line_right (p : Position) : p.right.line = p.line := rfl

@[simp] theorem line_down (p : Position) (width : Nat) : (p.down width).line = p.line + 1 := rfl

theorem offset_advance (p : Position) (cs : List Char) :
    (p.advance cs).offset = p.offset + cs.length := by
  fun_induction advance p cs with
  | case1 p => rfl
  | case2 p cs ih => rw [ih, offset_down, List.length_cons, List.length_cons]; omega
  | case3 p cs _ ih => rw [ih, offset_down, List.length_cons]; omega
  | case4 p cs ih => rw [ih, offset_down, List.length_cons]; omega
  | case5 p c cs _ _ _ ih => rw [ih, offset_right, List.length_cons]; omega

theorem line_le_line_advance (p : Position) (cs : List Char) :
    p.line ≤ (p.advance cs).line := by
  fun_induction advance p cs with
  | case1 p => exact Nat.le_refl _
  | case2 p cs ih => rw [line_down] at ih; omega
  | case3 p cs _ ih => rw [line_down] at ih; omega
  | case4 p cs ih => rw [line_down] at ih; omega
  | case5 p c cs _ _ _ ih => rwa [line_right] at ih

end Position

/-- A token of a source text. -/
structure Token where
  kind : TokenKind
  text : String
  start : Position
  deriving DecidableEq, Repr, Inhabited

namespace Token

/-- The offset after the last character. -/
def stop (t : Token) : Nat :=
  t.start.offset + t.text.length

/-- Trivia separates the tokens that carry meaning. -/
def isTrivia (t : Token) : Bool :=
  t.kind.isTrivia

/-- Whether the token is the identifier `word`. -/
def isIdentifier (t : Token) (word : String) : Bool :=
  t.kind == .identifier && t.text == word

end Token
end UsingStyle
