import UsingStyle.Proofs.Token.Restart

/-! # Tokens of two texts in a row

Lexing starts afresh behind every line break that is a token of its own. If the tokens of a text end
with one, more text leaves them as they are and is cut as if it stood alone, only further down. And
whenever a line break of a longer text is a token that ends at some place, the text up to that place
has such tokens: a lexeme that closes before a line break closes there in the shorter text as well.
-/

namespace UsingStyle

namespace Lexeme

/-! ## More text never shortens a lexeme -/

theorem run_le_run_append (p : Char → Bool) (cs more : List Char) :
    run p cs ≤ run p (cs ++ more) := by
  unfold run
  rw [List.takeWhile_append]
  split
  · rw [List.length_append]
    have hle := run_le_length p cs
    unfold run at hle
    omega
  · exact Nat.le_refl _

theorem blockCommentRest_le_append (cs more : List Char) :
    blockCommentRest cs ≤ blockCommentRest (cs ++ more) := by
  fun_induction blockCommentRest cs with
  | case1 cs => exact Nat.le_refl 2
  | case2 c cs hopen ih =>
      rw [List.cons_append, blockCommentRest.eq_def (c :: (cs ++ more))]
      split
      · rename_i heq
        -- the slash that closes the comment stands at the start of what follows
        obtain ⟨rfl, hslash⟩ := List.cons.inj heq
        have hnil : cs = [] := by
          cases cs with
          | nil => rfl
          | cons d cs =>
              cases hslash
              exact (hopen cs rfl rfl).elim
        rw [hnil]
        exact Nat.le_succ 1
      · rename_i heq
        cases heq
        exact Nat.succ_le_succ ih
      · contradiction
  | case3 => exact Nat.zero_le _

theorem rawStringRest_le_append (cs more : List Char) :
    rawStringRest cs ≤ rawStringRest (cs ++ more) := by
  fun_induction rawStringRest cs with
  | case1 cs => exact Nat.add_le_add_right (run_le_run_append _ cs more) 3
  | case2 c cs hopen ih =>
      rw [List.cons_append, rawStringRest.eq_def (c :: (cs ++ more))]
      split
      · rename_i heq
        obtain ⟨rfl, hquotes⟩ := List.cons.inj heq
        have hshort : rawStringRest cs ≤ 1 := by
          match cs with
          | [] => exact Nat.zero_le 1
          | [d] => simp [rawStringRest]
          | d :: e :: cs =>
              cases hquotes
              exact (hopen cs rfl rfl).elim
        omega
      · rename_i heq
        cases heq
        exact Nat.succ_le_succ ih
      · contradiction
  | case3 => exact Nat.zero_le _

theorem verbatimStringRest_le_append (cs more : List Char) :
    verbatimStringRest cs ≤ verbatimStringRest (cs ++ more) := by
  fun_induction verbatimStringRest cs with
  | case1 cs ih => exact Nat.add_le_add_right ih 2
  | case2 cs hdouble =>
      rw [List.cons_append, verbatimStringRest.eq_def ('"' :: (cs ++ more))]
      split
      · omega
      · exact Nat.le_refl 1
      · omega
      · contradiction
  | case3 c cs hdouble hquote ih =>
      rw [List.cons_append, verbatimStringRest]
      · exact Nat.succ_le_succ ih
      · rintro tail rfl
        exact absurd rfl hquote
      · exact hquote
  | case4 => exact Nat.zero_le _

theorem escapedRest_le_append (delimiter : Char) {cs : List Char} (h : EndsInBreak cs)
    (more : List Char) : escapedRest delimiter cs ≤ escapedRest delimiter (cs ++ more) := by
  fun_induction escapedRest delimiter cs with
  | case1 c cs ih =>
      rw [List.cons_append, List.cons_append, escapedRest]
      by_cases hne : cs = []
      · subst hne
        exact Nat.le_add_left 2 _
      · exact Nat.add_le_add_right (ih ((h.tail (List.cons_ne_nil c cs)).tail hne)) 2
  | case2 c cs hescape hc =>
      have hplain := ne_backslash_of_endsInBreak h hescape
      rw [List.cons_append, escapedRest, if_pos hc]
      exact fun _ _ heq _ => hplain heq
  | case3 c cs hescape hc hstop => exact Nat.zero_le _
  | case4 c cs hescape hc hstop ih =>
      have hplain := ne_backslash_of_endsInBreak h hescape
      rw [List.cons_append, escapedRest, if_neg hc, if_neg hstop]
      · by_cases hne : cs = []
        · subst hne
          exact Nat.succ_le_succ (Nat.zero_le _)
        · exact Nat.succ_le_succ (ih (h.tail hne))
      · exact fun _ _ heq _ => hplain heq
  | case5 => exact Nat.zero_le _

theorem rest_le_append (o : Opening) {cs : List Char} (h : EndsInBreak cs) (more : List Char) :
    rest o cs ≤ rest o (cs ++ more) := by
  cases o with
  | lineBreak _ => exact Nat.le_refl 0
  | blank => exact run_le_run_append _ cs more
  | lineComment => exact run_le_run_append _ cs more
  | blockComment => exact blockCommentRest_le_append cs more
  | preprocessor => exact run_le_run_append _ cs more
  | rawString _ => exact rawStringRest_le_append cs more
  | verbatimString _ => exact verbatimStringRest_le_append cs more
  | string _ => exact escapedRest_le_append _ h more
  | char => exact escapedRest_le_append _ h more
  | identifier _ => exact run_le_run_append _ cs more
  | number => exact Nat.le_of_eq (numberRest_append h more).symm
  | symbol _ => exact Nat.le_refl 0

/-- A lexeme that ends before the last line break does so without the text behind it. -/
theorem length_lt_of_append {fresh : Bool} {cs : List Char} (h : EndsInBreak cs)
    {more : List Char}
    (hlt : length (Opening.ofText fresh (cs ++ more)) (cs ++ more) < cs.length) :
    length (Opening.ofText fresh cs) cs < cs.length := by
  have hpos : 0 < length (Opening.ofText fresh (cs ++ more)) (cs ++ more) := by
    cases cs with
    | nil => exact absurd rfl h.ne_nil
    | cons c cs => exact length_pos fresh c (cs ++ more)
  rw [Opening.ofText_append h (by omega)] at hlt
  unfold length at hlt ⊢
  have hlead : (Opening.ofText fresh cs).lead < cs.length := by omega
  rw [List.drop_append_of_le_length (Nat.le_of_lt hlead)] at hlt
  have hrest := rest_le_append (Opening.ofText fresh cs) (h.drop hlead) more
  omega

end Lexeme

/-! ## Line breaks that are tokens -/

/-- A line break that is a whole text stays apart from what follows, and is its only token. -/
theorem endsInNewline_of_lineBreak {fresh : Bool} {cs more : List Char}
    (hkind : (Lexeme.Opening.ofText fresh (cs ++ more)).kind = .newline)
    (hlength : Lexeme.length (Lexeme.Opening.ofText fresh (cs ++ more)) (cs ++ more) = cs.length)
    (p : Position) :
    EndsInNewline (tokensFrom p fresh cs) ∧
      ¬ (cs.getLast? = some '\r' ∧ more.head? = some '\n') := by
  have hbreak := Lexeme.Opening.take_mem_lineBreaks hkind
  rw [hlength, List.take_left] at hbreak
  constructor
  · have hstands : (⟨.newline, cs⟩ : Piece).StandsBefore [] :=
      Piece.standsBefore_lineBreak hbreak (by simp)
    have hpiece := Piece.tokensFrom_piece hstands p fresh
    have hnil : ∀ q fresh, tokensFrom q fresh [] = [] := fun q fresh => by rw [tokensFrom]
    rw [List.append_nil, hnil] at hpiece
    rw [hpiece]
    exact ⟨_, rfl, rfl⟩
  · rintro ⟨hreturn, hfeed⟩
    obtain ⟨tail, rfl⟩ := List.head?_eq_some_iff.1 hfeed
    simp only [Lexeme.lineBreaks, List.mem_cons, List.not_mem_nil, or_false] at hbreak
    rcases hbreak with rfl | rfl | rfl
    · contradiction
    · -- the lexer takes both characters at once
      have hopening : Lexeme.Opening.ofText fresh ('\r' :: '\n' :: tail) = .lineBreak 2 := by
        rw [ofText_of_ne (by decide) (by decide) (by decide)]
        rfl
      rw [List.cons_append, List.nil_append, hopening] at hlength
      exact absurd hlength (Nat.succ_ne_self 1)
    · contradiction

theorem EndsInNewline.cons {ts : List Token} (h : EndsInNewline ts) (t : Token) :
    EndsInNewline (t :: ts) := by
  obtain ⟨u, hu, hkind⟩ := h
  refine ⟨u, ?_, hkind⟩
  rw [List.getLast?_cons, Option.mem_def.1 hu]
  rfl

/-- If a line break of a longer text is a token that ends where `cs` ends, the last token of `cs` is
a line break. -/
theorem endsInNewline_of_stop {p : Position} {fresh : Bool} {cs more : List Char} {t : Token}
    (ht : t ∈ tokensFrom p fresh (cs ++ more)) (hkind : t.kind = .newline)
    (hstop : t.stop = p.offset + cs.length) :
    EndsInNewline (tokensFrom p fresh cs) ∧
      ¬ (cs.getLast? = some '\r' ∧ more.head? = some '\n') := by
  generalize hwhole : cs ++ more = whole at ht
  fun_induction tokensFrom p fresh whole generalizing cs with
  | case1 p fresh => simp at ht
  | case2 p fresh c ws opening length text =>
      rename_i ih
      have hle : length ≤ (c :: ws).length := Lexeme.length_le fresh (c :: ws)
      have htext : text.length = length := List.length_take_of_le hle
      rcases List.mem_cons.1 ht with rfl | hrest
      · rw [Token.stop, String.length_ofList, htext] at hstop
        have hlength : length = cs.length := Nat.add_left_cancel hstop
        subst length opening
        rw [← hwhole] at hkind hlength
        exact endsInNewline_of_lineBreak hkind hlength p
      · have hbehind := (tiling_tokensFrom _ _ _).offset_lt_stop hrest
        rw [hstop, Position.offset_advance, htext] at hbehind
        have hlt : length < cs.length := by omega
        have hdrop : cs.drop length ++ more = (c :: ws).drop length := by
          rw [← hwhole, List.drop_append_of_le_length (Nat.le_of_lt hlt)]
        have hplace : t.stop = (p.advance text).offset + (cs.drop length).length := by
          rw [hstop, Position.offset_advance, htext, List.length_drop]
          omega
        obtain ⟨hlast, hcut⟩ := ih hplace hdrop hrest
        have hend : Lexeme.EndsInBreak cs := by
          rw [← List.take_append_drop length cs]
          exact hlast.endsInBreak.append_left _
        -- the first token is the same without the text behind
        have hshort : Lexeme.length (Lexeme.Opening.ofText fresh cs) cs < cs.length :=
          Lexeme.length_lt_of_append hend (by rw [hwhole]; exact hlt)
        have hstep := Lexeme.ofText_and_length_append hend hshort more
        rw [hwhole] at hstep
        obtain ⟨d, ds, rfl⟩ := List.exists_cons_of_ne_nil hend.ne_nil
        have hopening : Lexeme.Opening.ofText fresh (d :: ds) = opening := hstep.1.symm
        have hlength : Lexeme.length opening (d :: ds) = length := by
          rw [← hopening]
          exact hstep.2.symm
        have hword : (d :: ds).take length = text := by
          rw [← List.take_append_of_le_length (Nat.le_of_lt hlt), hwhole]
        rw [tokensFrom]
        simp only [hopening, hlength, hword]
        exact ⟨hlast.cons _, by rwa [List.getLast?_drop, if_neg (by omega)] at hcut⟩

/-- How many line breaks the lexer counts in a text. -/
def countedLines (text : String) : Nat :=
  (placeAfter .start (tokenize text)).line

/-- If the last token of a text is a line break that the text behind it does not continue, the
tokens of both in a row are those of the first one and those of the second one, further down. A line
break of both in a row is a token that ends between them in just this case. -/
theorem tokenize_append (a b : String) :
    (EndsInNewline (tokenize a) →
        ¬ (a.toList.getLast? = some '\r' ∧ b.toList.head? = some '\n') →
          tokenize (a ++ b) =
            tokenize a ++ (tokenize b).map (Token.below ⟨countedLines a, 0, a.length⟩)) ∧
      ((∃ t ∈ tokenize (a ++ b), t.kind = .newline ∧ t.stop = a.length) ↔
        EndsInNewline (tokenize a) ∧
          ¬ (a.toList.getLast? = some '\r' ∧ b.toList.head? = some '\n')) := by
  have htiling : Tiling .start a.toList (tokenize a) := tiling_tokensFrom _ _ _
  have hwhole : tokenize (a ++ b) = tokensFrom .start true (a.toList ++ b.toList) := by
    rw [tokenize, String.toList_append]
  have hoffset : Position.start.offset + a.toList.length = a.length := by
    rw [String.length_toList]
    exact Nat.zero_add _
  have hsplit (hnewline : EndsInNewline (tokenize a))
      (hcut : ¬ (a.toList.getLast? = some '\r' ∧ b.toList.head? = some '\n')) :
      tokenize (a ++ b) =
        tokenize a ++ (tokenize b).map (Token.below ⟨countedLines a, 0, a.length⟩) := by
    have hplace : placeAfter .start (tokenize a) = ⟨countedLines a, 0, a.length⟩ := by
      rw [← hnewline.column_placeAfter, ← hoffset, ← htiling.offset_placeAfter]
      rfl
    rw [hwhole, tokensFrom_append_eq_below hnewline hcut, ← hplace]
    rfl
  refine ⟨hsplit, ⟨?_, ?_⟩⟩
  · rintro ⟨t, ht, hkind, hstop⟩
    rw [hwhole] at ht
    exact endsInNewline_of_stop ht hkind (by rw [hstop, hoffset])
  · rintro ⟨hnewline, hcut⟩
    obtain ⟨t, ht, hkind⟩ := hnewline
    refine ⟨t, ?_, hkind, ?_⟩
    · rw [hsplit ⟨t, ht, hkind⟩ hcut]
      exact List.mem_append_left _ (List.mem_of_getLast? ht)
    · rw [htiling.stop_last t ht, hoffset]

/-- Three line breaks before the second text: inside a comment, inside a string, and a lone return
behind both. -/
theorem tokenize_append_behind_lone_return :
    EndsInNewline (tokenize "/*\n*/ @\"\r\n\"\r") ∧
      tokenize ("/*\n*/ @\"\r\n\"\r" ++ "#if \"\n\"#") =
        tokenize "/*\n*/ @\"\r\n\"\r" ++
          (tokenize "#if \"\n\"#").map (Token.below ⟨3, 0, 12⟩) := by
  have hnewline : EndsInNewline (tokenize "/*\n*/ @\"\r\n\"\r") := by decide +kernel
  have hplace : (⟨3, 0, 12⟩ : Position) =
      ⟨countedLines "/*\n*/ @\"\r\n\"\r", 0, "/*\n*/ @\"\r\n\"\r".length⟩ := by
    decide +kernel
  refine ⟨hnewline, ?_⟩
  rw [hplace]
  exact (tokenize_append "/*\n*/ @\"\r\n\"\r" "#if \"\n\"#").1 hnewline (by decide +kernel)

end UsingStyle
