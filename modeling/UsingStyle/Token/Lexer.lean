import UsingStyle.Token.Lexeme

/-! # From text to tokens

`tokenize` cuts a text into its lexemes, from left to right, and gives each its position. Only
blanks since the last line break token let a `#` start a preprocessor line; a line break inside a
comment or a literal does not count for this.
-/

namespace UsingStyle

/-- Whether a line is still blank after a token of the given kind. -/
def TokenKind.keepsFresh (kind : TokenKind) (fresh : Bool) : Bool :=
  match kind with
  | .newline => true
  | .whitespace => fresh
  | _ => false

/-- The tokens of the text `cs` that starts at `p`; `fresh` says that its line is blank so far. -/
def tokensFrom (p : Position) (fresh : Bool) (cs : List Char) : List Token :=
  match cs with
  | [] => []
  | c :: cs =>
    let opening := Lexeme.Opening.ofText fresh (c :: cs)
    let length := Lexeme.length opening (c :: cs)
    let text := (c :: cs).take length
    ⟨opening.kind, String.ofList text, p⟩ ::
      tokensFrom (p.advance text) (opening.kind.keepsFresh fresh) ((c :: cs).drop length)
termination_by cs.length
decreasing_by
  have h := Lexeme.length_pos fresh c cs
  simp only [List.length_drop, List.length_cons]
  omega

/-- Every token of the text, trivia included, in source order. -/
def tokenize (text : String) : List Token :=
  tokensFrom .start true text.toList

end UsingStyle
