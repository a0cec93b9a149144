import UsingStyle.Token.Lexer

/-! # What the kind of a token says about its text

The opening of a lexeme decides the kind of the token, and it looks at the first characters only.
So the kind of a token tells how its text starts. A literal starts with a quote or with one of the
two signs that may stand before one.
-/

namespace UsingStyle

open Text

/-- Strings and characters. -/
def TokenKind.isLiteral : TokenKind → Bool
  | .string | .char => true
  | _ => false

namespace Lexeme

/-- The characters that literals start with. -/
def literalStarts : List Char :=
  ['"', '\'', '$', '@']

/-- The first lexeme of a text that is not empty starts with the first character. -/
theorem take_length_cons (fresh : Bool) (c : Char) (cs : List Char) :
    ∃ word, (c :: cs).take (length (Opening.ofText fresh (c :: cs)) (c :: cs)) = c :: word := by
  have hpos := length_pos fresh c cs
  cases hlen : length (Opening.ofText fresh (c :: cs)) (c :: cs) with
  | zero => omega
  | succ n => exact ⟨cs.take n, List.take_succ_cons⟩

namespace Opening

theorem isWordStart_of_kind_ofChar {c : Char} (h : (ofChar c).kind = .identifier) :
    isWordStart c = true := by
  unfold ofChar at h
  split at h
  · contradiction
  · split at h
    · assumption
    · split at h <;> contradiction

theorem first_of_kind_ofFront {c : Char} {cs : List Char}
    (h : (ofFront (c :: cs)).kind = .identifier) : c = '@' ∨ isWordStart c = true := by
  unfold ofFront at h
  split at h
  all_goals try contradiction
  case h_12 heq =>
    cases heq
    exact .inl rfl
  case h_14 heq =>
    cases heq
    exact .inr (isWordStart_of_kind_ofChar h)

theorem first_of_kind_ofText {fresh : Bool} {c : Char} {cs : List Char}
    (h : (ofText fresh (c :: cs)).kind = .identifier) : c = '@' ∨ isWordStart c = true := by
  unfold ofText at h
  split at h
  · contradiction
  · dsimp only at h
    split at h
    · contradiction
    · exact first_of_kind_ofFront h

theorem not_isLiteral_ofChar (c : Char) : (ofChar c).kind.isLiteral = false := by
  unfold ofChar
  split
  · rfl
  · split
    · rfl
    · split <;> rfl

theorem first_of_literal_ofFront {c : Char} {cs : List Char}
    (h : (ofFront (c :: cs)).kind.isLiteral = true) : c ∈ literalStarts := by
  unfold ofFront at h
  split at h
  -- the six openings of a literal each show its first character
  case h_6 | h_7 | h_8 | h_9 | h_10 | h_11 =>
    rename_i heq
    cases heq
    decide
  case h_12 => split at h <;> contradiction
  case h_14 =>
    rw [not_isLiteral_ofChar] at h
    contradiction
  all_goals contradiction

/-- A raw string starts with its first `$`, or else with its first `"`. -/
theorem first_of_rawString {c : Char} {cs : List Char}
    (h : 3 ≤ run (· == '"') ((c :: cs).drop (run (· == '$') (c :: cs)))) : c ∈ literalStarts := by
  by_cases hdollar : c = '$'
  · simp [hdollar, literalStarts]
  · by_cases hquote : c = '"'
    · simp [hquote, literalStarts]
    · simp [run, hdollar, hquote] at h

theorem first_of_literal_ofText {fresh : Bool} {c : Char} {cs : List Char}
    (h : (ofText fresh (c :: cs)).kind.isLiteral = true) : c ∈ literalStarts := by
  unfold ofText at h
  split at h
  · contradiction
  · dsimp only at h
    split at h
    · rename_i hquotes
      exact first_of_rawString hquotes
    · exact first_of_literal_ofFront h

end Opening
end Lexeme

/-- The kind of a token is that of an opening which starts like the text of the token. -/
theorem exists_opening_of_mem {p : Position} {fresh : Bool} {cs : List Char} {t : Token}
    (ht : t ∈ tokensFrom p fresh cs) :
    ∃ fresh' c rest word, t.kind = (Lexeme.Opening.ofText fresh' (c :: rest)).kind ∧
      t.text.toList = c :: word := by
  fun_induction tokensFrom p fresh cs with
  | case1 p fresh => simp at ht
  | case2 p fresh c cs opening length text ih =>
      rcases List.mem_cons.1 ht with rfl | hrest
      · obtain ⟨word, hword⟩ := Lexeme.take_length_cons fresh c cs
        refine ⟨fresh, c, cs, word, rfl, ?_⟩
        rw [String.toList_ofList]
        exact hword
      · exact ih hrest

theorem first_of_identifier {p : Position} {fresh : Bool} {cs : List Char} {t : Token}
    (ht : t ∈ tokensFrom p fresh cs) (hkind : t.kind = .identifier) :
    ∃ c word, t.text.toList = c :: word ∧ (c = '@' ∨ isWordStart c = true) := by
  obtain ⟨fresh', c, rest, word, hopening, htext⟩ := exists_opening_of_mem ht
  rw [hkind] at hopening
  exact ⟨c, word, htext, Lexeme.Opening.first_of_kind_ofText hopening.symm⟩

theorem first_of_literal {p : Position} {fresh : Bool} {cs : List Char} {t : Token}
    (ht : t ∈ tokensFrom p fresh cs) (hkind : t.kind.isLiteral = true) :
    ∃ c word, t.text.toList = c :: word ∧ c ∈ Lexeme.literalStarts := by
  obtain ⟨fresh', c, rest, word, hopening, htext⟩ := exists_opening_of_mem ht
  rw [hopening] at hkind
  exact ⟨c, word, htext, Lexeme.Opening.first_of_literal_ofText hkind⟩

end UsingStyle
