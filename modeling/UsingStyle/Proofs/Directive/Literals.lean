import UsingStyle.Proofs.Directive.Spans

/-! # Literals and trivia

What stands inside a string or a character, and all that stands between the meaningful tokens, does
not matter for which directives are found. The scan compares the texts of tokens without looking at
their kinds; that this cannot confuse a literal with a brace or a word rests on how literals start.
-/

namespace UsingStyle

/-- The kind of a token, with its text unless it is a literal. -/
def Token.outline (t : Token) : TokenKind × Option String :=
  (t.kind, if t.kind.isLiteral then none else some t.text)

theorem beq_grammarWord_of_literal {text : String} {t : Token} (ht : t ∈ sourceTokens text)
    (hkind : t.kind.isLiteral = true) {w : String} (hw : w ∈ grammarWords) :
    (t.text == w) = false := by
  obtain ⟨c, word, htext, hc⟩ := first_of_literal (List.mem_filter.1 ht).1 hkind
  have hstart : (grammarWords.all fun w =>
      Lexeme.literalStarts.all fun c => w.toList.head? != some c) = true := by
    decide +kernel
  have hne := List.all_eq_true.1 (List.all_eq_true.1 hstart w hw) c hc
  rw [beq_eq_false_iff_ne]
  rintro rfl
  rw [htext] at hne
  simp at hne

/-- Tokens of sources that have one outline play the same role. -/
theorem Token.sameRole_of_outline_eq {a b : String} {t u : Token} (ht : t ∈ sourceTokens a)
    (hu : u ∈ sourceTokens b) (h : t.outline = u.outline) : t.SameRole u := by
  obtain ⟨hkind, htext⟩ := Prod.ext_iff.1 h
  dsimp only [Token.outline] at hkind htext
  rw [hkind] at htext
  cases hliteral : u.kind.isLiteral with
  | true =>
      have hliteral' : t.kind.isLiteral = true := by rw [hkind, hliteral]
      refine ⟨hkind, fun w hw => ?_, fun hidentifier => ?_⟩
      · rw [beq_grammarWord_of_literal ht hliteral' hw, beq_grammarWord_of_literal hu hliteral hw]
      · rw [hidentifier] at hliteral'
        contradiction
  | false =>
      have hsame : t.text = u.text := by simpa [hliteral] using htext
      exact ⟨hkind, fun w _ => by rw [hsame], fun _ => hsame⟩

theorem forall₂_sameRole_of_outlines_eq {a b : String}
    (h : (sourceTokens a).map Token.outline = (sourceTokens b).map Token.outline) :
    List.Forall₂ Token.SameRole (sourceTokens a) (sourceTokens b) := by
  obtain ⟨hlength, hzip⟩ := List.forall₂_iff_zip.1 (forall₂_of_map_eq h)
  refine List.forall₂_iff_zip.2 ⟨hlength, fun {t u} hpair => ?_⟩
  obtain ⟨ht, hu⟩ := List.of_mem_zip hpair
  exact Token.sameRole_of_outline_eq ht hu (hzip hpair)

/-- Two texts whose meaningful tokens differ in the contents of literals only hold the same
directives, one by one: they are written by the tokens with the same indices and have the same
aliases. -/
theorem scan_of_outlines_eq {a b : String}
    (h : (sourceTokens a).map Token.outline = (sourceTokens b).map Token.outline) :
    List.Forall₂ (Directive.SameRun a b 0 0) (scan a) (scan b) := by
  have hsame : occurrences (sourceTokens a) = occurrences (sourceTokens b) :=
    occurrencesFrom_eq (forall₂_sameRole_of_outlines_eq h) .top 0
  rw [scan_eq_map_reported, scan_eq_map_reported, ← hsame]
  exact forall₂_sameRun_zero (fun o ho => ho) (fun o ho => hsame ▸ ho)

/-- Braces and semicolons in literals, comments and preprocessor lines change nothing. -/
theorem scan_of_other_literals :
    (scan "using A = (\"\x7b\", 'x'); // c\nusing B;").length = 2 ∧
      List.Forall₂
        (Directive.SameRun "using A = (\"\x7b\", 'x'); // c\nusing B;"
          "/* ; */ using A=(@\"\x7d;\" ,'\\'' );\n#if \x7b\nusing B;" 0 0)
        (scan "using A = (\"\x7b\", 'x'); // c\nusing B;")
        (scan "/* ; */ using A=(@\"\x7d;\" ,'\\'' );\n#if \x7b\nusing B;") :=
  ⟨by decide +kernel, scan_of_outlines_eq (by decide +kernel)⟩

end UsingStyle
