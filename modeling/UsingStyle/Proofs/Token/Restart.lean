import UsingStyle.Proofs.Token.Endings
import UsingStyle.Proofs.Token.Layout

/-! # Lexing restarts behind a line break

A lexeme that ends before a line break is the same whatever follows the break: an unclosed comment
or literal would have taken the break itself, and no other lexeme looks that far. So the tokens of a
text whose last token is a line break stay what they are when more text follows, and the text behind
them is cut as if it stood alone, only further down.
-/

namespace UsingStyle

open Text

namespace Lexeme

/-! ## Texts that end in a line break -/

/-- The last character is a line break. -/
def EndsInBreak (cs : List Char) : Prop :=
  ∃ c ∈ cs.getLast?, isBreak c = true

namespace EndsInBreak

variable {c : Char} {cs : List Char}

theorem ne_nil (h : EndsInBreak cs) : cs ≠ [] := by
  rintro rfl
  obtain ⟨c, hc, _⟩ := h
  contradiction

theorem append_left (h : EndsInBreak cs) (before : List Char) : EndsInBreak (before ++ cs) := by
  unfold EndsInBreak
  rw [List.getLast?_append_of_ne_nil before h.ne_nil]
  exact h

theorem tail (h : EndsInBreak (c :: cs)) (hne : cs ≠ []) : EndsInBreak cs := by
  unfold EndsInBreak at h
  rwa [List.getLast?_cons_of_ne_nil hne] at h

theorem drop (h : EndsInBreak cs) {n : Nat} (hn : n < cs.length) : EndsInBreak (cs.drop n) := by
  unfold EndsInBreak
  rw [List.getLast?_drop, if_neg (by omega)]
  exact h

theorem isBreak_of_singleton (h : EndsInBreak [c]) : isBreak c = true := by
  obtain ⟨d, hd, hbreak⟩ := h
  cases hd
  exact hbreak

end EndsInBreak

/-- What fails for both break characters fails for a line break. -/
theorem eq_false_of_isBreak {p : Char → Bool} (hfeed : p '\n' = false) (hreturn : p '\r' = false)
    {c : Char} (h : isBreak c = true) : p c = false := by
  simp only [isBreak, Bool.or_eq_true, beq_iff_eq] at h
  rcases h with rfl | rfl
  · exact hfeed
  · exact hreturn

/-- The texts of a line break. -/
def lineBreaks : List (List Char) :=
  [['\r', '\n'], ['\r'], ['\n']]

theorem endsInBreak_of_mem_lineBreaks {w : List Char} (hw : w ∈ lineBreaks) : EndsInBreak w := by
  simp only [lineBreaks, List.mem_cons, List.not_mem_nil, or_false] at hw
  rcases hw with rfl | rfl | rfl
  · exact ⟨'\n', rfl, rfl⟩
  · exact ⟨'\r', rfl, rfl⟩
  · exact ⟨'\n', rfl, rfl⟩

/-! ## Runs -/

theorem run_append {p : Char → Bool} {cs : List Char} (h : run p cs < cs.length)
    (more : List Char) : run p (cs ++ more) = run p cs := by
  unfold run at h ⊢
  rw [List.takeWhile_append, if_neg (by omega)]

theorem run_lt_length {p : Char → Bool} (hfeed : p '\n' = false) (hreturn : p '\r' = false)
    {cs : List Char} (h : EndsInBreak cs) : run p cs < cs.length := by
  obtain ⟨c, hc, hbreak⟩ := h
  apply Nat.lt_of_le_of_ne (run_le_length p cs)
  intro heq
  have hlast := getLast?_take_run (eq_false_of_isBreak hfeed hreturn hbreak) cs
  rw [heq, List.take_length] at hlast
  exact hlast hc

theorem run_append_of_endsInBreak {p : Char → Bool} (hfeed : p '\n' = false)
    (hreturn : p '\r' = false) {cs : List Char} (h : EndsInBreak cs) (more : List Char) :
    run p (cs ++ more) = run p cs :=
  run_append (run_lt_length hfeed hreturn h) more

/-! ## The rest of a lexeme -/

/-- What follows a text does not change its first character. -/
theorem append_ne_cons {d : Char} {cs : List Char} (hne : cs ≠ [])
    (h : ∀ tail, cs = d :: tail → False) (more tail : List Char) : cs ++ more ≠ d :: tail := by
  cases cs with
  | nil => contradiction
  | cons c cs =>
      intro heq
      cases heq
      exact h cs rfl

theorem blockCommentRest_append {cs : List Char} (h : blockCommentRest cs < cs.length)
    (more : List Char) : blockCommentRest (cs ++ more) = blockCommentRest cs := by
  fun_induction blockCommentRest cs with
  | case1 cs => rfl
  | case2 c cs hopen ih =>
      have hlt := Nat.lt_of_succ_lt_succ h
      have hne : cs ≠ [] := List.ne_nil_of_length_pos (by omega)
      rw [List.cons_append, blockCommentRest, ih hlt]
      rintro tail rfl
      exact append_ne_cons hne (fun tail => hopen tail rfl) more tail
  | case3 => contradiction

theorem rawStringRest_append {cs : List Char} (h : rawStringRest cs < cs.length)
    (more : List Char) : rawStringRest (cs ++ more) = rawStringRest cs := by
  fun_induction rawStringRest cs with
  | case1 cs =>
      have hlt : run (· == '"') cs < cs.length := by
        simp only [List.length_cons] at h
        omega
      rw [List.cons_append, List.cons_append, List.cons_append, rawStringRest, run_append hlt]
  | case2 c cs hopen ih =>
      have hlt := Nat.lt_of_succ_lt_succ h
      rw [List.cons_append, rawStringRest, ih hlt]
      rintro tail rfl heq
      match cs with
      | [] => contradiction
      | [d] => simp [rawStringRest] at hlt
      | d :: e :: cs =>
          cases heq
          exact hopen cs rfl rfl
  | case3 => contradiction

theorem verbatimStringRest_append {cs : List Char} (h : verbatimStringRest cs < cs.length)
    (more : List Char) : verbatimStringRest (cs ++ more) = verbatimStringRest cs := by
  fun_induction verbatimStringRest cs with
  | case1 cs ih =>
      have hlt : verbatimStringRest cs < cs.length := by
        simp only [List.length_cons] at h
        omega
      rw [List.cons_append, List.cons_append, verbatimStringRest, ih hlt]
  | case2 cs hdouble =>
      have hne : cs ≠ [] := List.ne_nil_of_length_pos (Nat.lt_of_succ_lt_succ h)
      rw [List.cons_append, verbatimStringRest]
      exact append_ne_cons hne hdouble more
  | case3 c cs hdouble hquote ih =>
      have hlt := Nat.lt_of_succ_lt_succ h
      rw [List.cons_append, verbatimStringRest, ih hlt]
      · rintro tail rfl
        exact absurd rfl hquote
      · exact hquote
  | case4 => contradiction

/-- A backslash at the very end would escape what follows. -/
theorem ne_backslash_of_endsInBreak {c : Char} {cs : List Char} (h : EndsInBreak (c :: cs))
    (hescape : ∀ d tail, c = '\\' → cs = d :: tail → False) : c ≠ '\\' := by
  rintro rfl
  cases cs with
  | nil => exact absurd h.isBreak_of_singleton (by decide)
  | cons d cs => exact hescape d cs rfl rfl

theorem escapedRest_append (delimiter : Char) {cs : List Char} (h : EndsInBreak cs)
    (hlt : escapedRest delimiter cs < cs.length) (more : List Char) :
    escapedRest delimiter (cs ++ more) = escapedRest delimiter cs := by
  fun_induction escapedRest delimiter cs with
  | case1 c cs ih =>
      have hlt : escapedRest delimiter cs < cs.length := by
        simp only [List.length_cons] at hlt
        omega
      have hne : cs ≠ [] := List.ne_nil_of_length_pos (by omega)
      have hend := (h.tail (List.cons_ne_nil c cs)).tail hne
      rw [List.cons_append, List.cons_append, escapedRest, ih hend hlt]
  | case2 c cs hescape hc =>
      have hplain := ne_backslash_of_endsInBreak h hescape
      rw [List.cons_append, escapedRest, if_pos hc]
      exact fun _ _ heq _ => hplain heq
  | case3 c cs hescape hc hstop =>
      have hplain := ne_backslash_of_endsInBreak h hescape
      rw [List.cons_append, escapedRest, if_neg hc, if_pos hstop]
      exact fun _ _ heq _ => hplain heq
  | case4 c cs hescape hc hstop ih =>
      have hplain := ne_backslash_of_endsInBreak h hescape
      have hlt := Nat.lt_of_succ_lt_succ hlt
      have hne : cs ≠ [] := List.ne_nil_of_length_pos (by omega)
      rw [List.cons_append, escapedRest, if_neg hc, if_neg hstop, ih (h.tail hne) hlt]
      exact fun _ _ heq _ => hplain heq
  | case5 => contradiction

theorem numberRest_append {cs : List Char} (h : EndsInBreak cs) (more : List Char) :
    numberRest (cs ++ more) = numberRest cs := by
  have hwhole := run_lt_length (p := isWord) (by decide) (by decide) h
  have hdrop := h.drop hwhole
  unfold numberRest
  simp only [run_append hwhole, List.drop_append_of_le_length (Nat.le_of_lt hwhole)]
  cases hrest : cs.drop (run isWord cs) with
  | nil => exact absurd hrest hdrop.ne_nil
  | cons c ds =>
      rw [hrest] at hdrop
      cases ds with
      | nil =>
          have hc : c ≠ '.' := by
            rintro rfl
            exact absurd hdrop.isBreak_of_singleton (by decide)
          simp [hc]
      | cons d ds =>
          have hbehind := hdrop.tail (List.cons_ne_nil d ds)
          by_cases hc : c = '.'
          · subst hc
            by_cases hdigit : isDigit d = true
            · have hne : ds ≠ [] := by
                rintro rfl
                have hplain := eq_false_of_isBreak (p := isDigit) (by decide) (by decide)
                  hbehind.isBreak_of_singleton
                rw [hplain] at hdigit
                contradiction
              have hfraction := run_append_of_endsInBreak (p := isWord) (by decide) (by decide)
                (hbehind.tail hne) more
              simp [hdigit, hfraction]
            · simp [hdigit]
          · simp [hc]

/-- A lexeme that ends before the line break does not depend on what follows the break. -/
theorem rest_append {o : Opening} {cs : List Char} (h : EndsInBreak cs)
    (hlt : rest o cs < cs.length) (more : List Char) : rest o (cs ++ more) = rest o cs := by
  cases o with
  | lineBreak _ => rfl
  | blank => exact run_append hlt more
  | lineComment => exact run_append hlt more
  | blockComment => exact blockCommentRest_append hlt more
  | preprocessor => exact run_append hlt more
  | rawString _ => exact rawStringRest_append hlt more
  | verbatimString _ => exact verbatimStringRest_append hlt more
  | string _ => exact escapedRest_append _ h hlt more
  | char => exact escapedRest_append _ h hlt more
  | identifier _ => exact run_append hlt more
  | number => exact numberRest_append h more
  | symbol _ => rfl

/-! ## Openings -/

namespace Opening

/-- Two characters decide an opening, and a third one behind `@` or `$`. -/
theorem ofFront_congr {c d : Char} {r r' : List Char}
    (h : d = '@' ∨ d = '$' → r.head? = r'.head?) :
    ofFront (c :: d :: r) = ofFront (c :: d :: r') := by
  have hquote : d = '@' ∨ d = '$' → (∀ tail, r ≠ '"' :: tail) → ∀ tail, r' ≠ '"' :: tail := by
    intro hd hr tail htail
    have hhead := h hd
    rw [htail] at hhead
    obtain ⟨more, hmore⟩ := List.head?_eq_some_iff.1 hhead
    exact hr more hmore
  rw [ofFront.eq_def (c :: d :: r)]
  split
  case h_2 hfeed heq =>
    cases heq
    rw [ofFront.eq_2]
    intro tail heq
    cases heq
    exact hfeed r rfl
  case h_6 heq =>
    cases heq
    obtain ⟨tail, rfl⟩ := List.head?_eq_some_iff.1 (h (.inl rfl)).symm
    rfl
  case h_7 heq =>
    cases heq
    obtain ⟨tail, rfl⟩ := List.head?_eq_some_iff.1 (h (.inr rfl)).symm
    rfl
  case h_12 hverbatim hplain heq =>
    cases heq
    rw [ofFront.eq_12]
    · rintro tail rfl
      exact hquote (.inr rfl) (fun more => hverbatim more rfl) tail
    · exact hplain
  case h_14 heq =>
    -- none of the patterns fits, for either text
    cases heq
    rw [ofFront.eq_14] <;> simp_all
  case h_15 heq => contradiction
  all_goals
    rename_i heq
    cases heq
    rfl

theorem ofFront_append {cs : List Char} (h : EndsInBreak cs) (hlen : 2 ≤ cs.length)
    (more : List Char) : ofFront (cs ++ more) = ofFront cs := by
  match cs with
  | [c, d] =>
      have hbreak := (h.tail (List.cons_ne_nil d [])).isBreak_of_singleton
      apply ofFront_congr
      rintro (rfl | rfl)
      · contradiction
      · contradiction
  | c :: d :: e :: cs => exact ofFront_congr fun _ => rfl

theorem ofText_append {cs : List Char} (h : EndsInBreak cs) (hlen : 2 ≤ cs.length) (fresh : Bool)
    (more : List Char) : ofText fresh (cs ++ more) = ofText fresh cs := by
  have hdollars := run_lt_length (p := (· == '$')) (by decide) (by decide) h
  have hquotes := run_append_of_endsInBreak (p := (· == '"')) (by decide) (by decide)
    (h.drop hdollars) more
  have hhead : (cs ++ more).head? = cs.head? := List.head?_append_of_ne_nil cs h.ne_nil
  unfold ofText
  simp only [hhead, run_append hdollars, List.drop_append_of_le_length (Nat.le_of_lt hdollars),
    hquotes, ofFront_append h hlen]

theorem take_mem_lineBreaks_of_ofFront {cs : List Char} (h : (ofFront cs).kind = .newline) :
    cs.take (length (ofFront cs) cs) ∈ lineBreaks := by
  unfold ofFront at h ⊢
  split at h
  case h_1 => simp [length, lead, rest, lineBreaks]
  case h_2 => simp [length, lead, rest, lineBreaks]
  case h_3 => simp [length, lead, rest, lineBreaks]
  case h_12 => split at h <;> contradiction
  case h_14 =>
    unfold ofChar at h
    split at h
    · contradiction
    · split at h
      · contradiction
      · split at h <;> contradiction
  all_goals contradiction

theorem take_mem_lineBreaks {fresh : Bool} {cs : List Char}
    (h : (ofText fresh cs).kind = .newline) :
    cs.take (length (ofText fresh cs) cs) ∈ lineBreaks := by
  unfold ofText at h ⊢
  split at h
  · contradiction
  · rename_i hsharp
    rw [if_neg hsharp]
    dsimp only at h ⊢
    split at h
    · contradiction
    · rename_i hquotes
      rw [if_neg hquotes]
      exact take_mem_lineBreaks_of_ofFront h

end Opening

/-- The first lexeme stays what it is when it ends before the line break. -/
theorem ofText_and_length_append {fresh : Bool} {cs : List Char} (h : EndsInBreak cs)
    (hlt : length (Opening.ofText fresh cs) cs < cs.length) (more : List Char) :
    Opening.ofText fresh (cs ++ more) = Opening.ofText fresh cs ∧
      length (Opening.ofText fresh (cs ++ more)) (cs ++ more) =
        length (Opening.ofText fresh cs) cs := by
  have hpos : 0 < length (Opening.ofText fresh cs) cs := by
    cases cs with
    | nil => exact absurd rfl h.ne_nil
    | cons c cs => exact length_pos fresh c cs
  have hopening := Opening.ofText_append h (by omega) fresh more
  refine ⟨hopening, ?_⟩
  rw [hopening]
  unfold length at hlt ⊢
  have hlead : (Opening.ofText fresh cs).lead < cs.length := by omega
  have hrest : rest (Opening.ofText fresh cs) (cs.drop (Opening.ofText fresh cs).lead) <
      (cs.drop (Opening.ofText fresh cs).lead).length := by
    rw [List.length_drop]
    omega
  rw [List.drop_append_of_le_length (Nat.le_of_lt hlead), rest_append (h.drop hlead) hrest]

end Lexeme

/-! ## Line breaks -/

theorem Piece.standsBefore_lineBreak {w : List Char} (hw : w ∈ Lexeme.lineBreaks)
    {more : List Char} (hcut : ¬ (w.getLast? = some '\r' ∧ more.head? = some '\n')) :
    (⟨.newline, w⟩ : Piece).StandsBefore more := by
  simp only [Lexeme.lineBreaks, List.mem_cons, List.not_mem_nil, or_false] at hw
  rcases hw with rfl | rfl | rfl
  · have hfront : ∀ fresh,
        Lexeme.Opening.ofText fresh ('\r' :: '\n' :: more) = .lineBreak 2 := by
      intro fresh
      rw [ofText_of_ne (by decide) (by decide) (by decide)]
      rfl
    exact standsBefore_of_opening (List.cons_ne_nil _ _) hfront rfl rfl
  · have hfront : ∀ fresh, Lexeme.Opening.ofText fresh ('\r' :: more) = .lineBreak 1 := by
      intro fresh
      rw [ofText_of_ne (by decide) (by decide) (by decide), Lexeme.Opening.ofFront]
      rintro tail rfl
      exact hcut ⟨rfl, rfl⟩
    exact standsBefore_of_opening (List.cons_ne_nil _ _) hfront rfl rfl
  · exact standsBefore_lineFeed more

theorem text_mem_lineBreaks {p : Position} {fresh : Bool} {cs : List Char} {t : Token}
    (ht : t ∈ tokensFrom p fresh cs) (hkind : t.kind = .newline) :
    t.text.toList ∈ Lexeme.lineBreaks := by
  fun_induction tokensFrom p fresh cs with
  | case1 p fresh => simp at ht
  | case2 p fresh c cs opening length text ih =>
      rcases List.mem_cons.1 ht with rfl | hrest
      · rw [String.toList_ofList]
        exact Lexeme.Opening.take_mem_lineBreaks hkind
      · exact ih hrest

/-! ## Places -/

/-- The place behind the tokens. -/
def placeAfter (p : Position) (ts : List Token) : Position :=
  ts.foldl (fun q t => q.advance t.text.toList) p

@[simp] theorem placeAfter_nil (p : Position) : placeAfter p [] = p := rfl

@[simp] theorem placeAfter_cons (p : Position) (t : Token) (ts : List Token) :
    placeAfter p (t :: ts) = placeAfter (p.advance t.text.toList) ts := rfl

theorem Tiling.offset_placeAfter {p : Position} {cs : List Char} {ts : List Token}
    (h : Tiling p cs ts) : (placeAfter p ts).offset = p.offset + cs.length := by
  induction h with
  | nil p => rfl
  | @cons p cs ts t hstart hne hrest ih =>
      rw [placeAfter_cons, ih, Position.offset_advance, List.length_append]
      omega

theorem Tiling.last_suffix {p : Position} {cs : List Char} {ts : List Token} (h : Tiling p cs ts) :
    ∀ t ∈ ts.getLast?, t.text.toList <:+ cs := by
  induction h with
  | nil p => simp
  | @cons p cs ts t hstart hne hrest ih =>
      intro u hu
      cases hrest with
      | nil q =>
          cases hu
          exact ⟨[], (List.append_nil _).symm⟩
      | cons hstart' hne' hrest' =>
          rw [List.getLast?_cons_cons] at hu
          exact (ih u hu).trans (List.suffix_append _ _)

/-- The last token is a line break. -/
def EndsInNewline (ts : List Token) : Prop :=
  ∃ t ∈ ts.getLast?, t.kind = .newline

instance (ts : List Token) : Decidable (EndsInNewline ts) :=
  decidable_of_iff (ts.getLast?.any (fun t => t.kind == .newline) = true)
    (by simp [EndsInNewline, Option.any_eq_true])

namespace EndsInNewline

variable {p : Position} {fresh : Bool} {cs : List Char}

theorem endsInBreak (h : EndsInNewline (tokensFrom p fresh cs)) : Lexeme.EndsInBreak cs := by
  obtain ⟨t, ht, hkind⟩ := h
  have htext := text_mem_lineBreaks (List.mem_of_getLast? ht) hkind
  obtain ⟨before, hbefore⟩ := (tiling_tokensFrom p fresh cs).last_suffix t ht
  rw [← hbefore]
  exact (Lexeme.endsInBreak_of_mem_lineBreaks htext).append_left before

/-- A line starts behind the last token. -/
theorem column_placeAfter (h : EndsInNewline (tokensFrom p fresh cs)) :
    (placeAfter p (tokensFrom p fresh cs)).column = 0 := by
  obtain ⟨t, ht, hkind⟩ := h
  have htext := text_mem_lineBreaks (List.mem_of_getLast? ht) hkind
  have hcolumn : ∀ w ∈ Lexeme.lineBreaks, ∀ q : Position, (q.advance w).column = 0 := by
    intro w hw q
    simp only [Lexeme.lineBreaks, List.mem_cons, List.not_mem_nil, or_false] at hw
    rcases hw with rfl | rfl | rfl <;> rfl
  obtain ⟨before, hbefore⟩ := List.getLast?_eq_some_iff.1 ht
  rw [hbefore, placeAfter, List.foldl_concat]
  exact hcolumn _ htext _

end EndsInNewline

/-! ## Texts further down -/

/-- The place `p` of a text that is moved behind `q`, where a line starts. -/
def Position.below (q p : Position) : Position :=
  ⟨q.line + p.line, p.column, q.offset + p.offset⟩

def Token.below (q : Position) (t : Token) : Token :=
  ⟨t.kind, t.text, q.below t.start⟩

theorem Position.below_start {q : Position} (h : q.column = 0) : q.below .start = q := by
  cases q
  cases h
  rfl

theorem Position.advance_below (q p : Position) (cs : List Char) :
    (q.below p).advance cs = q.below (p.advance cs) := by
  fun_induction Position.advance p cs with
  | case1 p => rfl
  | case2 p cs ih => exact ih
  | case3 p cs hfeed ih =>
      rw [Position.advance]
      · exact ih
      · exact hfeed
  | case4 p cs ih => exact ih
  | case5 p c cs _ _ _ ih =>
      rw [Position.advance]
      · exact ih
      all_goals assumption

/-- The lexer does not look at the place where it starts. -/
theorem tokensFrom_below (q p : Position) (fresh : Bool) (cs : List Char) :
    tokensFrom (q.below p) fresh cs = (tokensFrom p fresh cs).map (Token.below q) := by
  fun_induction tokensFrom p fresh cs with
  | case1 p fresh => simp [tokensFrom]
  | case2 p fresh c cs opening length text ih =>
      rw [tokensFrom, List.map_cons, ← ih, ← Position.advance_below]
      rfl

/-! ## More text -/

theorem tokensFrom_ne_nil {p : Position} {fresh : Bool} {cs : List Char} (h : cs ≠ []) :
    tokensFrom p fresh cs ≠ [] := by
  cases cs with
  | nil => contradiction
  | cons c cs =>
      rw [tokensFrom]
      exact List.cons_ne_nil _ _

/-- One token that ends before the last line break. -/
theorem tokensFrom_cons_append {fresh : Bool} {c : Char} {cs : List Char}
    (hend : Lexeme.EndsInBreak (c :: cs)) {o : Lexeme.Opening} {n : Nat}
    (ho : Lexeme.Opening.ofText fresh (c :: cs) = o) (hn : Lexeme.length o (c :: cs) = n)
    (hlt : n < (c :: cs).length) (p : Position) (more : List Char) :
    tokensFrom p fresh (c :: cs ++ more) =
      ⟨o.kind, String.ofList ((c :: cs).take n), p⟩ ::
        tokensFrom (p.advance ((c :: cs).take n)) (o.kind.keepsFresh fresh)
          ((c :: cs).drop n ++ more) := by
  subst ho hn
  have hstep := Lexeme.ofText_and_length_append hend hlt more
  have hopening := hstep.1
  have hlength := hstep.2
  rw [hopening] at hlength
  rw [List.cons_append, tokensFrom, ← List.cons_append]
  simp only [hopening, hlength, List.take_append_of_le_length (Nat.le_of_lt hlt),
    List.drop_append_of_le_length (Nat.le_of_lt hlt)]

/-- More text behind a line break token leaves the tokens as they are. -/
theorem tokensFrom_append {p : Position} {fresh : Bool} {cs : List Char}
    (h : EndsInNewline (tokensFrom p fresh cs)) {more : List Char}
    (hcut : ¬ (cs.getLast? = some '\r' ∧ more.head? = some '\n')) :
    tokensFrom p fresh (cs ++ more) =
      tokensFrom p fresh cs ++ tokensFrom (placeAfter p (tokensFrom p fresh cs)) true more := by
  have hend := h.endsInBreak
  fun_induction tokensFrom p fresh cs with
  | case1 p fresh => exact absurd rfl hend.ne_nil
  | case2 p fresh c cs opening length text ih =>
      have htext : (String.ofList text).toList = text := String.toList_ofList
      by_cases hlt : length < (c :: cs).length
      · have hrest := hend.drop hlt
        have hlast : EndsInNewline (tokensFrom (p.advance text) (opening.kind.keepsFresh fresh)
            ((c :: cs).drop length)) := by
          unfold EndsInNewline at h
          rwa [List.getLast?_cons_of_ne_nil (tokensFrom_ne_nil hrest.ne_nil)] at h
        have hcut' : ¬ (((c :: cs).drop length).getLast? = some '\r' ∧
            more.head? = some '\n') := by
          rwa [List.getLast?_drop, if_neg (by omega)]
        rw [tokensFrom_cons_append hend rfl rfl hlt, List.cons_append, placeAfter_cons, htext,
          ← ih hlast hcut' hrest]
      · -- the line break is the only token
        have hle : (c :: cs).length ≤ length := Nat.le_of_not_lt hlt
        have hall : text = c :: cs := List.take_of_length_le hle
        have hnil : (c :: cs).drop length = [] := List.drop_eq_nil_of_le hle
        have hend : tokensFrom (p.advance text) (opening.kind.keepsFresh fresh) [] = [] := by
          rw [tokensFrom]
        rw [hnil, hend] at h
        obtain ⟨t, ht, hkind⟩ := h
        cases ht
        have hbreak : c :: cs ∈ Lexeme.lineBreaks :=
          hall ▸ Lexeme.Opening.take_mem_lineBreaks hkind
        have hpiece := Piece.tokensFrom_piece (Piece.standsBefore_lineBreak hbreak hcut) p fresh
        have hkind : opening.kind = .newline := hkind
        rw [hpiece, hnil, hend, placeAfter_cons, placeAfter_nil, htext, hall, hkind]
        rfl

/-- The text behind a line break token is cut as if it stood alone. -/
theorem tokensFrom_append_eq_below {p : Position} {fresh : Bool} {cs : List Char}
    (h : EndsInNewline (tokensFrom p fresh cs)) {more : List Char}
    (hcut : ¬ (cs.getLast? = some '\r' ∧ more.head? = some '\n')) :
    tokensFrom p fresh (cs ++ more) = tokensFrom p fresh cs ++
      (tokensFrom .start true more).map (Token.below (placeAfter p (tokensFrom p fresh cs))) := by
  rw [tokensFrom_append h hcut, ← tokensFrom_below, Position.below_start h.column_placeAfter]

end UsingStyle
