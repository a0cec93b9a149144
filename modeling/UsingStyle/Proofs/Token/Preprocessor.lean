import UsingStyle.Proofs.Token.Contents

/-! # Preprocessor lines

A `#` starts a preprocessor line exactly if nothing but blanks stands between it and the line break
before it. The lexer only remembers whether it has passed anything but blanks since the last line
break that is a token of its own. This comes to the same: a token that holds a line break inside
goes on to a character that is not blank, unless no `#` can follow it.
-/

namespace UsingStyle

open Text Lexeme

/-! ## The line before an offset -/

/-- The characters behind the last line break of a text, or all of them. -/
def lastLine (before : List Char) : List Char :=
  (before.reverse.takeWhile fun c => !isBreak c).reverse

/-- The last line of the text is blank. -/
def LastLineBlank (before : List Char) : Prop :=
  ∀ c ∈ lastLine before, isBlank c = true

instance (before : List Char) : Decidable (LastLineBlank before) :=
  List.decidableBAll (fun c => isBlank c = true) (lastLine before)

theorem lastLine_concat (before : List Char) (c : Char) :
    lastLine (before ++ [c]) = if isBreak c then [] else lastLine before ++ [c] := by
  unfold lastLine
  rw [List.reverse_append, List.reverse_singleton, List.singleton_append]
  by_cases hbreak : isBreak c = true
  · simp [hbreak]
  · simp [hbreak]

theorem lastLineBlank_of_endsInBreak {before : List Char} (h : EndsInBreak before) :
    LastLineBlank before := by
  obtain ⟨c, hc, hbreak⟩ := h
  obtain ⟨front, rfl⟩ := List.getLast?_eq_some_iff.1 hc
  intro d hd
  rw [lastLine_concat, if_pos hbreak] at hd
  contradiction

theorem lastLineBlank_append_blanks {w : List Char} (h : ∀ c ∈ w, isInlineBlank c = true)
    (before : List Char) : LastLineBlank (before ++ w) ↔ LastLineBlank before := by
  induction w generalizing before with
  | nil => rw [List.append_nil]
  | cons c w ih =>
      have hc := Bool.and_eq_true_iff.1 (h c List.mem_cons_self)
      have hbreak : ¬ isBreak c = true := by simpa using hc.2
      rw [List.append_cons, ih (fun d hd => h d (List.mem_cons_of_mem c hd))]
      unfold LastLineBlank
      rw [lastLine_concat, if_neg hbreak, List.forall_mem_append]
      exact and_iff_left (by simpa using hc.1)

theorem not_lastLineBlank_of_getLast? {before : List Char} {c : Char} (hc : c ∈ before.getLast?)
    (hblank : isBlank c = false) : ¬ LastLineBlank before := by
  obtain ⟨front, rfl⟩ := List.getLast?_eq_some_iff.1 hc
  have hbreak : ¬ isBreak c = true := by
    intro h
    rw [isBlank_of_isBreak h] at hblank
    contradiction
  intro hall
  have hmem : c ∈ lastLine (front ++ [c]) := by
    rw [lastLine_concat, if_neg hbreak]
    exact List.mem_append_right _ List.mem_cons_self
  rw [hall c hmem] at hblank
  contradiction

/-! ## How lexemes end -/

/-- The word ends with a character that is not blank, or else no `#` stands behind it: the text
ends, also with a single backslash, or the line does. -/
def Settles (word behind : List Char) : Prop :=
  (∃ c ∈ word.getLast?, isBlank c = false) ∨ behind = ['\\'] ∨
    ∀ c ∈ behind.head?, isBreak c = true

namespace Settles

theorem of_getLast? {c : Char} {word behind : List Char} (h : word.getLast? = some c)
    (hblank : isBlank c = false) : Settles word behind :=
  .inl ⟨c, h, hblank⟩

theorem of_nil {word behind : List Char} (h : behind = []) : Settles word behind := by
  subst h
  exact .inr (.inr (by simp))

theorem append_left {word behind : List Char} (h : Settles word behind) (front : List Char) :
    Settles (front ++ word) behind := by
  rcases h with ⟨c, hc, hblank⟩ | hrest
  · refine .inl ⟨c, ?_, hblank⟩
    rw [List.getLast?_append, Option.mem_def.1 hc]
    rfl
  · exact .inr hrest

end Settles

namespace Lexeme

theorem settles_escaped {delimiter : Char} (hdelimiter : isBlank delimiter = false)
    (cs : List Char) :
    Settles (cs.take (escapedRest delimiter cs)) (cs.drop (escapedRest delimiter cs)) := by
  fun_induction escapedRest delimiter cs with
  | case1 c cs ih => exact ih.append_left ['\\', c]
  | case2 c cs _ hc =>
      rw [← beq_iff_eq.1 hc] at hdelimiter
      exact .of_getLast? rfl hdelimiter
  | case3 c cs hescape _ hstop =>
      rcases Bool.or_eq_true_iff.1 hstop with hbackslash | hbreak
      · have hnil : cs = [] := by
          cases cs with
          | nil => rfl
          | cons d cs => exact (hescape d cs (beq_iff_eq.1 hbackslash) rfl).elim
        subst hnil
        exact .inr (.inl (by rw [beq_iff_eq.1 hbackslash]; rfl))
      · exact .inr (.inr (by simpa using hbreak))
  | case4 c cs _ _ _ ih => exact ih.append_left [c]
  | case5 => exact .of_nil rfl

theorem settles_line (cs : List Char) :
    Settles (cs.take (run (fun c => !isBreak c) cs)) (cs.drop (run (fun c => !isBreak c) cs)) := by
  rw [drop_run]
  refine .inr (.inr fun c hc => ?_)
  simpa using eq_false_of_head?_dropWhile hc

/-- The further characters of a lexeme that is neither a line break nor blank. -/
theorem settles_rest {o : Opening} (hnewline : o.kind ≠ .newline) (hblank : o.kind ≠ .whitespace)
    (cs : List Char) :
    cs.take (rest o cs) = [] ∨ Settles (cs.take (rest o cs)) (cs.drop (rest o cs)) := by
  have hwords (n : Nat)
      (h : ∀ c, isBlank c = true → (cs.take n).getLast? ≠ some c) :
      cs.take n = [] ∨ Settles (cs.take n) (cs.drop n) := by
    cases hlast : (cs.take n).getLast? with
    | none => exact .inl (List.getLast?_eq_none_iff.1 hlast)
    | some c => exact .inr (.of_getLast? hlast (Bool.eq_false_iff.2 fun hc => h c hc hlast))
  cases o with
  | lineBreak _ => contradiction
  | blank => contradiction
  | lineComment => exact .inr (settles_line cs)
  | preprocessor => exact .inr (settles_line cs)
  | blockComment =>
      rcases getLast?_blockComment cs with hend | hslash
      · exact .inr (.of_nil hend)
      · exact .inr (.of_getLast? hslash (by decide))
  | rawString _ =>
      rcases getLast?_rawString cs with hend | hquote
      · exact .inr (.of_nil hend)
      · exact .inr (.of_getLast? hquote (by decide))
  | verbatimString _ =>
      rcases getLast?_verbatimString cs with hend | hquote
      · exact .inr (.of_nil hend)
      · exact .inr (.of_getLast? hquote (by decide))
  | string _ => exact .inr (settles_escaped (by decide) cs)
  | char => exact .inr (settles_escaped (by decide) cs)
  | identifier _ =>
      exact hwords _ fun c hc => getLast?_take_run (isWord_eq_false_of_isBlank hc) cs
  | number =>
      exact hwords _ fun c hc =>
        getLast?_number (isWord_eq_false_of_isBlank hc) (isDigit_eq_false_of_isBlank hc) cs
  | symbol _ => exact .inl rfl

namespace Opening

/-- Only line breaks and blank lexemes start with a blank. -/
theorem isBlank_first {fresh : Bool} {c : Char} {cs : List Char}
    (hnewline : (ofText fresh (c :: cs)).kind ≠ .newline)
    (hwhitespace : (ofText fresh (c :: cs)).kind ≠ .whitespace) : isBlank c = false := by
  rw [Bool.eq_false_iff]
  intro hblank
  by_cases hbreak : isBreak c = true
  · exact hnewline (kind_of_isBreak hbreak cs)
  · have hinline : isInlineBlank c = true := by simp [isInlineBlank, hblank, hbreak]
    rw [ofText_inlineBlank hinline] at hwhitespace
    exact hwhitespace rfl

theorem getLast?_lead_ofFront {c : Char} (hc : isBlank c = false) (cs : List Char) :
    ∃ d ∈ ((c :: cs).take (ofFront (c :: cs)).lead).getLast?, isBlank d = false := by
  unfold ofFront
  split
  case h_1 heq | h_2 heq | h_3 heq =>
    cases heq
    contradiction
  case h_12 d ds _ _ heq =>
    cases heq
    by_cases hd : isWordStart d = true
    · rw [if_pos hd]
      refine ⟨d, rfl, Bool.eq_false_iff.2 fun hblank => ?_⟩
      have hword := (Bool.and_eq_true_iff.1 hd).1
      rw [isWord_eq_false_of_isBlank hblank] at hword
      contradiction
    · rw [if_neg hd]
      exact ⟨'@', rfl, by decide⟩
  case h_14 heq =>
    cases heq
    rw [lead_ofChar]
    exact ⟨c, rfl, hc⟩
  case h_15 heq => contradiction
  all_goals
    rename_i heq
    cases heq
    simp only [lead, List.take_succ_cons, List.take_zero]
    exact ⟨_, rfl, by decide⟩

theorem getLast?_lead_rawString {cs : List Char} {n : Nat} (hn : 0 < n)
    (hquotes : run (· == '"') (cs.drop (run (· == '$') cs)) = n) :
    (cs.take (run (· == '$') cs + n)).getLast? = some '"' := by
  have hne : (cs.drop (run (· == '$') cs)).take n ≠ [] := by
    intro hnil
    have hlength := congrArg List.length hnil
    have hle := run_le_length (· == '"') (cs.drop (run (· == '$') cs))
    rw [List.length_take, List.length_nil] at hlength
    omega
  have hall : (cs.drop (run (· == '$') cs)).take n =
      (cs.drop (run (· == '$') cs)).takeWhile (· == '"') := by
    rw [← hquotes, take_run]
  rw [List.take_add, List.getLast?_append_of_ne_nil _ hne]
  cases hlast : ((cs.drop (run (· == '$') cs)).take n).getLast? with
  | none => exact absurd (List.getLast?_eq_none_iff.1 hlast) hne
  | some c =>
      have hmem := List.mem_of_getLast? hlast
      rw [hall] at hmem
      have hc := List.all_eq_true.1 List.all_takeWhile c hmem
      rw [beq_iff_eq.1 hc]

theorem getLast?_lead {fresh : Bool} {c : Char} (hc : isBlank c = false) (cs : List Char) :
    ∃ d ∈ ((c :: cs).take (ofText fresh (c :: cs)).lead).getLast?, isBlank d = false := by
  unfold ofText
  split
  · exact ⟨c, rfl, hc⟩
  · dsimp only
    split
    · rename_i hquotes
      exact ⟨'"', getLast?_lead_rawString (Nat.lt_of_lt_of_le (by decide) hquotes) rfl, by decide⟩
    · exact getLast?_lead_ofFront hc cs

end Opening

theorem settles_lexeme {fresh : Bool} {c : Char} {cs : List Char}
    (hnewline : (Opening.ofText fresh (c :: cs)).kind ≠ .newline)
    (hwhitespace : (Opening.ofText fresh (c :: cs)).kind ≠ .whitespace) :
    Settles ((c :: cs).take (length (Opening.ofText fresh (c :: cs)) (c :: cs)))
      ((c :: cs).drop (length (Opening.ofText fresh (c :: cs)) (c :: cs))) := by
  have hfirst := Opening.isBlank_first hnewline hwhitespace
  unfold length
  rw [List.take_add, ← List.drop_drop]
  rcases settles_rest hnewline hwhitespace ((c :: cs).drop (Opening.ofText fresh (c :: cs)).lead)
    with hnil | hrest
  · rw [hnil, List.append_nil]
    exact .inl (Opening.getLast?_lead hfirst cs)
  · exact hrest.append_left _

end Lexeme

/-! ## What the lexer remembers -/

/-- The lexer takes the line in front of `cs` for blank only if it is, and takes a blank line for
another only where no `#` can come next. -/
structure FreshFits (fresh : Bool) (before cs : List Char) : Prop where
  lastLineBlank : fresh = true → LastLineBlank before
  settles : LastLineBlank before → fresh = true ∨ Settles [] cs

theorem not_settles_nil {c : Char} (hbackslash : c ≠ '\\') (hbreak : isBreak c = false)
    (cs : List Char) : ¬ Settles [] (c :: cs) := by
  rintro (⟨d, hd, -⟩ | hend | hline)
  · contradiction
  · exact hbackslash (List.cons.inj hend).1
  · rw [hline c rfl] at hbreak
    contradiction

theorem TokenKind.keepsFresh_of_ne {kind : TokenKind} (hnewline : kind ≠ .newline)
    (hwhitespace : kind ≠ .whitespace) (fresh : Bool) : kind.keepsFresh fresh = false := by
  cases kind with
  | newline | whitespace => contradiction
  | lineComment | blockComment | preprocessor | string | char | identifier | number | punctuation =>
      rfl

namespace FreshFits

variable {fresh : Bool} {before cs : List Char}

theorem start (cs : List Char) : FreshFits true [] cs where
  lastLineBlank _ := by simp [LastLineBlank, lastLine]
  settles _ := .inl rfl

theorem iff_of_not_settles (h : FreshFits fresh before cs) (hnot : ¬ Settles [] cs) :
    fresh = true ↔ LastLineBlank before :=
  ⟨h.lastLineBlank, fun hblank => (h.settles hblank).resolve_right hnot⟩

theorem of_newline {word : List Char} (h : word ∈ lineBreaks) (before behind : List Char) :
    FreshFits true (before ++ word) behind where
  lastLineBlank _ :=
    lastLineBlank_of_endsInBreak ((endsInBreak_of_mem_lineBreaks h).append_left before)
  settles _ := .inl rfl

theorem of_settles {word behind : List Char} (h : Settles word behind) (before : List Char) :
    FreshFits false (before ++ word) behind where
  lastLineBlank hfresh := by contradiction
  settles hblank := by
    rcases h.append_left before with ⟨c, hc, hplain⟩ | hrest
    · exact absurd hblank (not_lastLineBlank_of_getLast? hc hplain)
    · exact .inr (.inr hrest)

/-- One lexeme further, the lexer is right again. -/
theorem step {c : Char} (h : FreshFits fresh before (c :: cs)) :
    FreshFits ((Opening.ofText fresh (c :: cs)).kind.keepsFresh fresh)
      (before ++ (c :: cs).take (Lexeme.length (Opening.ofText fresh (c :: cs)) (c :: cs)))
      ((c :: cs).drop (Lexeme.length (Opening.ofText fresh (c :: cs)) (c :: cs))) := by
  by_cases hnewline : (Opening.ofText fresh (c :: cs)).kind = .newline
  · rw [show (Opening.ofText fresh (c :: cs)).kind.keepsFresh fresh = true by rw [hnewline]; rfl]
    exact of_newline (Opening.take_mem_lineBreaks hnewline) _ _
  by_cases hwhitespace : (Opening.ofText fresh (c :: cs)).kind = .whitespace
  · -- blanks leave both the flag and the blankness of the line as they are
    rw [show (Opening.ofText fresh (c :: cs)).kind.keepsFresh fresh = fresh by
      rw [hwhitespace]; rfl]
    have hblanks := Opening.chars_of_whitespace hwhitespace
    obtain ⟨word, hword⟩ := take_length_cons fresh c cs
    have hc : isInlineBlank c = true := hblanks c (by rw [hword]; exact List.mem_cons_self)
    have hbackslash : c ≠ '\\' := by
      rintro rfl
      contradiction
    have hnot := not_settles_nil hbackslash (by simpa using (Bool.and_eq_true_iff.1 hc).2) cs
    have hiff := (h.iff_of_not_settles hnot).trans (lastLineBlank_append_blanks hblanks before).symm
    exact ⟨hiff.1, fun hblank => .inl (hiff.2 hblank)⟩
  · rw [TokenKind.keepsFresh_of_ne hnewline hwhitespace]
    exact of_settles (settles_lexeme hnewline hwhitespace) before

end FreshFits

/-! ## Tokens that start with `#` -/

namespace Lexeme.Opening

theorem ofText_sharp (fresh : Bool) (cs : List Char) :
    ofText fresh ('#' :: cs) = if fresh then .preprocessor else .symbol 1 := by
  cases fresh with
  | true => rfl
  | false =>
      have hopening : ofText false ('#' :: cs) = ofFront ('#' :: cs) := by simp [ofText, run]
      rw [hopening]
      rfl

theorem kind_ofFront_ne_preprocessor (cs : List Char) : (ofFront cs).kind ≠ .preprocessor := by
  unfold ofFront
  split
  case h_12 => split <;> decide
  case h_14 =>
    unfold ofChar
    split
    · decide
    · split
      · decide
      · split <;> decide
  all_goals simp [kind]

theorem head?_of_preprocessor {fresh : Bool} {cs : List Char}
    (h : (ofText fresh cs).kind = .preprocessor) : cs.head? = some '#' := by
  rcases ofText_cases fresh cs with hsharp | ⟨lead, hraw⟩ | hfront
  · exact hsharp.2
  · rw [hraw] at h
    contradiction
  · rw [hfront] at h
    exact absurd h (kind_ofFront_ne_preprocessor cs)

end Lexeme.Opening

theorem Token.Opens.head?_eq {t : Token} {cs : List Char} {fresh : Bool} (h : t.Opens cs fresh)
    (htext : t.text.toList = cs.take t.text.length) : t.text.toList.head? = cs.head? := by
  rw [htext, List.head?_take, if_neg (Nat.ne_of_gt h.pos)]

theorem Token.Opens.of_sharp {t : Token} {cs : List Char} {fresh : Bool}
    (h : t.Opens ('#' :: cs) fresh) (htext : t.text.toList = ('#' :: cs).take t.text.length) :
    if fresh then
      t.kind = .preprocessor ∧ t.text.toList = ('#' :: cs).takeWhile fun c => !isBreak c
    else t.kind = .punctuation ∧ t.text = "#" := by
  have hkind := h.kind_eq
  have hlength := h.length_eq
  rw [hlength] at htext
  rw [Lexeme.Opening.ofText_sharp] at hkind htext
  cases fresh with
  | true =>
      have hrun : Lexeme.length .preprocessor ('#' :: cs) = run (fun c => !isBreak c) cs + 1 :=
        Nat.add_comm _ _
      refine ⟨hkind, ?_⟩
      rw [if_pos rfl, hrun, List.take_succ_cons, take_run] at htext
      exact htext
  | false => exact ⟨hkind, String.toList_inj.1 htext⟩

/-- A token that starts with `#` is a preprocessor line, up to the end of its line, if the line in
front of it is blank, and a sign of one character otherwise. No other token is a preprocessor
line. -/
theorem preprocessor_iff_lastLineBlank (text : String) {t : Token} (ht : t ∈ tokenize text) :
    (t.text.toList.head? = some '#' →
        (t.kind = .preprocessor ↔ LastLineBlank (text.toList.take t.start.offset)) ∧
          if t.kind = .preprocessor then
            t.text.toList = (text.toList.drop t.start.offset).takeWhile fun c => !isBreak c
          else t.kind = .punctuation ∧ t.text = "#") ∧
      (t.kind = .preprocessor → t.text.toList.head? = some '#') := by
  obtain ⟨fresh, hfits, hopens⟩ := exists_opens_of_step (fun _ _ _ _ h => FreshFits.step h) []
    rfl (FreshFits.start text.toList) ht
  rw [List.nil_append] at hfits hopens
  have htiling : Tiling .start text.toList (tokenize text) := tiling_tokensFrom _ _ _
  have htext : t.text.toList = (text.toList.drop t.start.offset).take t.text.length := by
    have hslice := congrArg String.toList (htiling.text_eq_slice [] rfl ht)
    have hwidth : t.stop - t.start.offset = t.text.length := Nat.add_sub_cancel_left _ _
    rwa [List.nil_append, slice, String.toList_ofList, hwidth] at hslice
  constructor
  · intro hsharp
    rw [hopens.head?_eq htext] at hsharp
    obtain ⟨cs, hcs⟩ := List.head?_eq_some_iff.1 hsharp
    rw [hcs] at hfits hopens htext ⊢
    have hiff := hfits.iff_of_not_settles (not_settles_nil (by decide) (by decide) cs)
    have htoken := hopens.of_sharp htext
    rw [← hiff]
    cases fresh with
    | true => simp [htoken.1, htoken.2]
    | false => simp [htoken.1, htoken.2]
  · intro hkind
    rw [hopens.head?_eq htext]
    exact Lexeme.Opening.head?_of_preprocessor (hopens.kind_eq.symm.trans hkind)

/-- A `#` behind a comment that ends on its line, and one behind a vertical tab. -/
theorem preprocessor_iff_lastLineBlank_behind_comment :
    (⟨.punctuation, "#", ⟨1, 3, 6⟩⟩ ∈ tokenize "/*\n*/ #\n\x0b#if x" ∧
        ¬ LastLineBlank ("/*\n*/ #\n\x0b#if x".toList.take 6)) ∧
      ⟨.preprocessor, "#if x", ⟨2, 1, 9⟩⟩ ∈ tokenize "/*\n*/ #\n\x0b#if x" ∧
        LastLineBlank ("/*\n*/ #\n\x0b#if x".toList.take 9) ∧
        "#if x".toList = ("/*\n*/ #\n\x0b#if x".toList.drop 9).takeWhile fun c => !isBreak c := by
  have hsign : ⟨.punctuation, "#", ⟨1, 3, 6⟩⟩ ∈ tokenize "/*\n*/ #\n\x0b#if x" := by
    decide +kernel
  have hline : ⟨.preprocessor, "#if x", ⟨2, 1, 9⟩⟩ ∈ tokenize "/*\n*/ #\n\x0b#if x" := by
    decide +kernel
  have hplain := ((preprocessor_iff_lastLineBlank _ hsign).1 rfl).1
  have hdirective := (preprocessor_iff_lastLineBlank _ hline).1 rfl
  exact ⟨⟨hsign, fun h => absurd (hplain.2 h) (by decide)⟩, hline, hdirective.1.1 rfl,
    hdirective.2⟩

end UsingStyle
