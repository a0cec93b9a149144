import UsingStyle.Proofs.Token.Spelling

/-! # What tokens of each kind hold

Identifiers hold word characters only, and blank tokens hold blanks only. A comment or preprocessor
line shows by its first character that it is neither. Where another token follows, it has ended: a
comment up to the end of the line is followed by the line break, and a block comment is closed.
-/

namespace UsingStyle

open Text Lexeme

/-- Comments and preprocessor lines: trivia with a text of their own. -/
def TokenKind.isAside : TokenKind → Bool
  | .lineComment | .blockComment | .preprocessor => true
  | _ => false

theorem TokenKind.isTrivia_of_isAside {kind : TokenKind} (h : kind.isAside = true) :
    kind.isTrivia = true := by
  cases kind with
  | lineComment | blockComment | preprocessor => rfl
  | newline | whitespace | string | char | identifier | number | punctuation => contradiction

/-! ## Openings -/

namespace Lexeme

theorem drop_run (q : Char → Bool) (cs : List Char) : cs.drop (run q cs) = cs.dropWhile q := by
  have hcut : cs.takeWhile q ++ cs.dropWhile q = cs := List.takeWhile_append_dropWhile
  have hdrop : (cs.takeWhile q ++ cs.dropWhile q).drop (cs.takeWhile q).length = cs.dropWhile q :=
    List.drop_left
  rwa [hcut] at hdrop

namespace Opening

theorem ofText_cases (fresh : Bool) (cs : List Char) :
    (ofText fresh cs = .preprocessor ∧ cs.head? = some '#') ∨
      (∃ lead, ofText fresh cs = .rawString lead) ∨ ofText fresh cs = ofFront cs := by
  unfold ofText
  split
  · rename_i h
    exact .inl ⟨rfl, by simpa using (Bool.and_eq_true_iff.1 h).2⟩
  · dsimp only
    split
    · exact .inr (.inl ⟨_, rfl⟩)
    · exact .inr (.inr rfl)

/-- An opening that is neither a preprocessor line nor a literal is found by its first
characters. -/
theorem ofText_eq_ofFront {fresh : Bool} {cs : List Char}
    (hpreprocessor : (ofText fresh cs).kind ≠ .preprocessor)
    (hstring : (ofText fresh cs).kind ≠ .string) : ofText fresh cs = ofFront cs := by
  rcases ofText_cases fresh cs with h | h | h
  · exact absurd (congrArg kind h.1) hpreprocessor
  · obtain ⟨lead, h⟩ := h
    exact absurd (congrArg kind h) hstring
  · exact h

theorem ofChar_of_identifier {c : Char} (h : (ofChar c).kind = .identifier) :
    ofChar c = .identifier 1 := by
  unfold ofChar at h ⊢
  split at h
  · contradiction
  · rename_i hblank
    rw [if_neg hblank]
    split at h
    · rename_i hword
      rw [if_pos hword]
    · split at h <;> contradiction

theorem ofFront_of_identifier {c : Char} {cs : List Char}
    (h : (ofFront (c :: cs)).kind = .identifier) :
    (ofFront (c :: cs) = .identifier 1 ∧ isWord c = true) ∨
      (c = '@' ∧ ∃ d ds, cs = d :: ds ∧ ofFront (c :: cs) = .identifier 2 ∧ isWord d = true) := by
  unfold ofFront at h ⊢
  split at h
  case h_12 d ds _ _ heq =>
    cases heq
    split at h
    · rename_i hd
      exact .inr ⟨rfl, d, ds, rfl, by simp [hd], (Bool.and_eq_true_iff.1 hd).1⟩
    · contradiction
  case h_14 heq =>
    cases heq
    have hc := isWordStart_of_kind_ofChar h
    exact .inl ⟨by simp [ofChar_of_identifier h], (Bool.and_eq_true_iff.1 hc).1⟩
  all_goals contradiction

theorem ofFront_of_whitespace {c : Char} {cs : List Char}
    (h : (ofFront (c :: cs)).kind = .whitespace) :
    ofFront (c :: cs) = .blank ∧ isInlineBlank c = true := by
  unfold ofFront at h ⊢
  split at h
  case h_12 => split at h <;> contradiction
  case h_14 heq =>
    cases heq
    unfold ofChar at h ⊢
    split at h
    · rename_i hblank
      simp [hblank]
    · split at h
      · contradiction
      · split at h <;> contradiction
  all_goals contradiction

theorem chars_of_whitespace {fresh : Bool} {c : Char} {cs : List Char}
    (h : (ofText fresh (c :: cs)).kind = .whitespace) :
    ∀ d ∈ (c :: cs).take (Lexeme.length (ofText fresh (c :: cs)) (c :: cs)),
      isInlineBlank d = true := by
  have hfront : ofText fresh (c :: cs) = ofFront (c :: cs) :=
    ofText_eq_ofFront (by rw [h]; decide) (by rw [h]; decide)
  rw [hfront] at h ⊢
  have hblank := ofFront_of_whitespace h
  have hlength : Lexeme.length .blank (c :: cs) = run isInlineBlank cs + 1 := Nat.add_comm _ _
  rw [hblank.1, hlength, List.take_succ_cons, take_run]
  exact List.forall_mem_cons.2 ⟨hblank.2, List.all_eq_true.1 List.all_takeWhile⟩

/-- Trivia that are not blank start with `/` or `#`. -/
theorem first_of_trivia {fresh : Bool} {c : Char} {cs : List Char}
    (h : (ofText fresh (c :: cs)).kind.isTrivia = true) :
    if (ofText fresh (c :: cs)).kind.isAside then c = '/' ∨ c = '#' else isBlank c = true := by
  rcases ofText_cases fresh (c :: cs) with hsharp | hraw | hfront
  · have hc : c = '#' := Option.some.inj hsharp.2
    rw [hsharp.1]
    exact .inr hc
  · obtain ⟨lead, hraw⟩ := hraw
    rw [hraw] at h
    contradiction
  · rw [hfront] at h ⊢
    unfold ofFront at h ⊢
    split at h
    case h_1 heq | h_2 heq | h_3 heq =>
      cases heq
      decide
    case h_4 heq | h_5 heq =>
      cases heq
      exact .inl rfl
    case h_12 => split at h <;> contradiction
    case h_14 heq =>
      cases heq
      unfold ofChar at h ⊢
      split at h
      · rename_i hblank
        rw [if_pos hblank]
        exact (Bool.and_eq_true_iff.1 hblank).1
      · split at h
        · contradiction
        · split at h <;> contradiction
    all_goals contradiction

theorem eq_blockComment {o : Opening} (h : o.kind = .blockComment) : o = .blockComment := by
  cases o with
  | blockComment => rfl
  | lineBreak _ | blank | lineComment | preprocessor | rawString _ | verbatimString _ | string _
  | char | identifier _ | number | symbol _ => contradiction

theorem kind_of_isBreak {fresh : Bool} {c : Char} (h : isBreak c = true) (cs : List Char) :
    (ofText fresh (c :: cs)).kind = .newline := by
  simp only [isBreak, Bool.or_eq_true, beq_iff_eq] at h
  rcases h with rfl | rfl
  · rw [ofText_of_ne (by decide) (by decide) (by decide)]
    rfl
  · rw [ofText_of_ne (by decide) (by decide) (by decide)]
    unfold ofFront
    split
    case h_1 => rfl
    case h_2 => rfl
    case h_14 heq =>
      cases heq
      contradiction
    all_goals
      rename_i heq
      cases heq

end Opening
end Lexeme

/-! ## Contents -/

/-- A token is the first lexeme of the text that it starts. -/
theorem exists_lexeme_of_mem {p : Position} {fresh : Bool} {cs : List Char} {t : Token}
    (ht : t ∈ tokensFrom p fresh cs) :
    ∃ fresh' c rest, t.kind = (Opening.ofText fresh' (c :: rest)).kind ∧
      t.text.toList = (c :: rest).take
        (Lexeme.length (Opening.ofText fresh' (c :: rest)) (c :: rest)) := by
  fun_induction tokensFrom p fresh cs with
  | case1 p fresh => simp at ht
  | case2 p fresh c cs opening length text ih =>
      rcases List.mem_cons.1 ht with rfl | hrest
      · exact ⟨fresh, c, cs, rfl, String.toList_ofList⟩
      · exact ih hrest

section Contents

variable {p : Position} {fresh : Bool} {cs : List Char} {t : Token}

theorem chars_of_identifier (ht : t ∈ tokensFrom p fresh cs) (hkind : t.kind = .identifier) :
    ∀ c ∈ t.text.toList, c = '@' ∨ isWord c = true := by
  obtain ⟨fresh', c, rest, hopening, htext⟩ := exists_lexeme_of_mem ht
  rw [hkind] at hopening
  have hfront : Opening.ofText fresh' (c :: rest) = Opening.ofFront (c :: rest) :=
    Opening.ofText_eq_ofFront (by rw [← hopening]; decide) (by rw [← hopening]; decide)
  rw [hfront] at hopening htext
  have hrun : ∀ ds : List Char, ∀ d ∈ ds.take (run isWord ds), d = '@' ∨ isWord d = true := by
    intro ds d hd
    rw [take_run] at hd
    exact .inr (List.all_eq_true.1 List.all_takeWhile d hd)
  rcases Opening.ofFront_of_identifier hopening.symm with hplain | hverbatim
  · have hlength : Lexeme.length (.identifier 1) (c :: rest) = run isWord rest + 1 :=
      Nat.add_comm _ _
    rw [hplain.1, hlength, List.take_succ_cons] at htext
    rw [htext]
    exact List.forall_mem_cons.2 ⟨.inr hplain.2, hrun rest⟩
  · obtain ⟨rfl, d, ds, rfl, hidentifier, hd⟩ := hverbatim
    have hlength : Lexeme.length (.identifier 2) ('@' :: d :: ds) = run isWord ds + 1 + 1 :=
      Nat.add_comm _ _
    rw [hidentifier, hlength, List.take_succ_cons, List.take_succ_cons] at htext
    rw [htext]
    exact List.forall_mem_cons.2 ⟨.inl rfl, List.forall_mem_cons.2 ⟨.inr hd, hrun ds⟩⟩

theorem chars_of_whitespace (ht : t ∈ tokensFrom p fresh cs) (hkind : t.kind = .whitespace) :
    ∀ c ∈ t.text.toList, isBlank c = true := by
  obtain ⟨fresh', c, rest, hopening, htext⟩ := exists_lexeme_of_mem ht
  rw [hkind] at hopening
  intro d hd
  rw [htext] at hd
  exact (Bool.and_eq_true_iff.1 (Opening.chars_of_whitespace hopening.symm d hd)).1

theorem chars_of_newline (ht : t ∈ tokensFrom p fresh cs) (hkind : t.kind = .newline) :
    ∀ c ∈ t.text.toList, isBlank c = true := by
  have hall : lineBreaks.all (fun w => w.all isBlank) = true := by decide
  exact List.all_eq_true.1 (List.all_eq_true.1 hall _ (text_mem_lineBreaks ht hkind))

/-- Trivia without a text of their own are blank. -/
theorem chars_of_trivia (ht : t ∈ tokensFrom p fresh cs) (htrivia : t.isTrivia = true)
    (haside : t.kind.isAside = false) : ∀ c ∈ t.text.toList, isBlank c = true := by
  unfold Token.isTrivia at htrivia
  cases hkind : t.kind with
  | whitespace => exact chars_of_whitespace ht hkind
  | newline => exact chars_of_newline ht hkind
  | lineComment | blockComment | preprocessor | string | char | identifier | number | punctuation =>
      rw [hkind] at htrivia haside
      contradiction

theorem first_of_trivia (ht : t ∈ tokensFrom p fresh cs) (htrivia : t.isTrivia = true) :
    ∃ c word, t.text.toList = c :: word ∧
      if t.kind.isAside then c = '/' ∨ c = '#' else isBlank c = true := by
  obtain ⟨fresh', c, rest, word, hopening, htext⟩ := exists_opening_of_mem ht
  refine ⟨c, word, htext, ?_⟩
  unfold Token.isTrivia at htrivia
  rw [hopening] at htrivia ⊢
  exact Opening.first_of_trivia htrivia

end Contents

/-! ## Endings -/

/-- Before the token `u`, the trivia `t` has ended. -/
structure Token.EndsBefore (t u : Token) : Prop where
  line : t.kind = .lineComment ∨ t.kind = .preprocessor → u.kind = .newline
  block : t.kind = .blockComment → t.text.toList.getLast? = some '/'

theorem isBreak_of_head?_drop {o : Opening} (ho : o.kind = .lineComment ∨ o.kind = .preprocessor)
    {cs : List Char} {c : Char} (hc : c ∈ (cs.drop (Lexeme.length o cs)).head?) :
    isBreak c = true := by
  have hrest : rest o (cs.drop o.lead) = run (fun d => !isBreak d) (cs.drop o.lead) := by
    cases o with
    | lineComment => rfl
    | preprocessor => rfl
    | lineBreak _ | blank | blockComment | rawString _ | verbatimString _ | string _ | char
    | identifier _ | number | symbol _ => simp [Opening.kind] at ho
  rw [Lexeme.length, hrest, ← List.drop_drop, drop_run] at hc
  simpa using eq_false_of_head?_dropWhile hc

theorem getLast?_of_blockComment {cs : List Char}
    (h : cs.drop (Lexeme.length .blockComment cs) ≠ []) :
    (cs.take (Lexeme.length .blockComment cs)).getLast? = some '/' := by
  unfold Lexeme.length at h ⊢
  rw [← List.drop_drop] at h
  have hslash := (getLast?_blockComment _).resolve_left h
  have hne : (cs.drop Opening.blockComment.lead).take
      (blockCommentRest (cs.drop Opening.blockComment.lead)) ≠ [] := by
    intro hnil
    rw [hnil] at hslash
    contradiction
  rw [List.take_add]
  exact (List.getLast?_append_of_ne_nil _ hne).trans hslash

theorem isChain_endsBefore (p : Position) (fresh : Bool) (cs : List Char) :
    (tokensFrom p fresh cs).IsChain Token.EndsBefore := by
  fun_induction tokensFrom p fresh cs with
  | case1 p fresh => exact .nil
  | case2 p fresh c cs opening length text =>
      rename_i ih
      refine List.isChain_cons.2 ⟨?_, ih⟩
      intro u hu
      have hnext : (c :: cs).drop length ≠ [] := by
        intro hnil
        rw [hnil, tokensFrom] at hu
        contradiction
      obtain ⟨d, more, hmore⟩ := List.exists_cons_of_ne_nil hnext
      constructor
      · intro hline
        have hd : d ∈ ((c :: cs).drop (Lexeme.length opening (c :: cs))).head? := by
          show d ∈ ((c :: cs).drop length).head?
          rw [hmore]
          rfl
        have hbreak := isBreak_of_head?_drop hline hd
        rw [hmore, tokensFrom] at hu
        cases hu
        exact Opening.kind_of_isBreak hbreak more
      · intro hblock
        have hopening := Opening.eq_blockComment hblock
        have hlength : length = Lexeme.length .blockComment (c :: cs) := by
          rw [← hopening]
        rw [hlength] at hnext
        rw [String.toList_ofList, show text = (c :: cs).take length from rfl, hlength]
        exact getLast?_of_blockComment hnext

end UsingStyle
