import UsingStyle.Proofs.Token.Pattern

/-! # Which alternative matches

The openers of the alternatives fit the openings of lexemes: of all alternatives whose opener
matches at the front of a text, the first is the one for the opening. So the first match of the
pattern is the first lexeme of the text.
-/

namespace UsingStyle.Lexeme

open Text Regex

/-! ## Openers -/

/-- The alternatives that are tried before this one. -/
def Group.earlier (g : Group) : List Group :=
  all.takeWhile (· != g)

theorem Group.exists_all_eq (g : Group) : ∃ later, all = g.earlier ++ g :: later := by
  cases g <;> exact ⟨_, rfl⟩

/-- The alternative is the first whose opener matches, and its opener leaves `mid`. -/
structure Chosen (g : Group) (cs mid : List Char) : Prop where
  earlier_fail : ∀ g' ∈ g.earlier, g'.opener.ends cs = []
  first?_opener : g.opener.first? cs = some mid

theorem Chosen.firstMatch?_eq {g : Group} {cs mid rest : List Char} (h : Chosen g cs mid)
    (hbody : g.body.first? mid = some rest) : firstMatch? cs = some (g, rest) := by
  obtain ⟨later, hall⟩ := g.exists_all_eq
  have hearlier :
      (g.earlier.flatMap fun g => (g.regex.ends cs).map fun rest => (g, rest)) = [] := by
    refine List.flatMap_eq_nil_iff.2 fun g' hg' => ?_
    rw [Group.regex, ends_seq_eq_nil (h.earlier_fail g' hg'), List.map_nil]
  have hregex : (g.regex.ends cs).head? = some rest := first?_seq h.first?_opener hbody
  rw [firstMatch?, hall, List.flatMap_append, hearlier, List.nil_append, List.flatMap_cons,
    List.head?_append, List.head?_map, hregex]
  rfl

/-- Whether a match of the alternative can start with the character. -/
def Group.startsWith : Group → Char → Bool
  | newline, c => isBreak c
  | whitespace, c => isInlineBlank c
  | lineComment, c | blockComment, c => c == '/'
  | rawString, c | string, c => c == '$' || c == '"'
  | verbatimString, c => c == '$' || c == '@'
  | char, c => c == '\''
  | identifier, c => c == '@' || isWordStart c
  | number, c => isDigit c
  | punctuation, _ => true

/-- Dollars are skipped in front of the quotes of a raw string. -/
theorem ends_rawString_opener (cs : List Char) :
    Group.rawString.opener.ends cs = (atLeast 3 (sign '"')).ends (cs.dropWhile (· == '$')) :=
  ends_many_sign_seq (fun _ => ends_atLeast_sign (by simp)) cs

theorem ends_sign_of_ne {c d : Char} (h : c ≠ d) (cs : List Char) : (sign d).ends (c :: cs) = [] :=
  ends_sign_of fun _ heq => h (List.cons.inj heq).1

theorem ends_opener_of_startsWith {g : Group} {c : Char} (h : g.startsWith c = false)
    (cs : List Char) : g.opener.ends (c :: cs) = [] := by
  cases g with
  | newline =>
      simp only [Group.startsWith, isBreak, Bool.or_eq_false_iff, beq_eq_false_iff_ne] at h
      rw [Group.opener, ends_alt, ends_alt, ends_seq_eq_nil (ends_sign_of_ne h.2 cs),
        ends_sign_of_ne h.1, ends_sign_of_ne h.2]
      rfl
  | whitespace | number => exact if_neg (Bool.eq_false_iff.1 h)
  | lineComment | blockComment =>
      simp only [Group.startsWith, beq_eq_false_iff_ne] at h
      exact ends_seq_eq_nil (ends_sign_of_ne h cs)
  | rawString =>
      simp only [Group.startsWith, Bool.or_eq_false_iff, beq_eq_false_iff_ne] at h
      rw [ends_rawString_opener, List.dropWhile_cons_of_neg (by simpa using h.1)]
      exact ends_seq_eq_nil (ends_sign_of_ne h.2 cs)
  | verbatimString =>
      simp only [Group.startsWith, Bool.or_eq_false_iff, beq_eq_false_iff_ne] at h
      refine ends_seq_eq_nil ?_
      rw [ends_alt, ends_alt, ends_seq_eq_nil (ends_sign_of_ne h.1 cs),
        ends_seq_eq_nil (ends_sign_of_ne h.2 cs), ends_sign_of_ne h.2]
      rfl
  | string =>
      simp only [Group.startsWith, Bool.or_eq_false_iff, beq_eq_false_iff_ne] at h
      rw [Group.opener, ends_option_seq, ends_seq_eq_nil (ends_sign_of_ne h.1 cs),
        ends_sign_of_ne h.2]
      rfl
  | char =>
      simp only [Group.startsWith, beq_eq_false_iff_ne] at h
      exact ends_sign_of_ne h cs
  | identifier =>
      simp only [Group.startsWith, Bool.or_eq_false_iff, beq_eq_false_iff_ne] at h
      rw [Group.opener, ends_option_seq, ends_seq_eq_nil (ends_sign_of_ne h.1 cs), ends_one_cons,
        if_neg (Bool.eq_false_iff.1 h.2)]
      rfl
  | punctuation => contradiction

/-! ## Openings and openers -/

/-- Of the alternatives that are tried before, only the rivals can start with the character, and
they fail. -/
theorem chosen_of_rivals {g : Group} {c : Char} {cs mid : List Char} (rivals : List Group)
    (hearlier : ∀ g' ∈ g.earlier, g' ∈ rivals ∨ g'.startsWith c = false)
    (hrivals : ∀ g' ∈ rivals, g'.opener.ends (c :: cs) = [])
    (hopener : g.opener.first? (c :: cs) = some mid) : Chosen g (c :: cs) mid := by
  refine ⟨fun g' hg' => ?_, hopener⟩
  rcases hearlier g' hg' with hrival | hstart
  · exact hrivals g' hrival
  · exact ends_opener_of_startsWith hstart cs

theorem chosen_rawString {cs : List Char}
    (h : 3 ≤ run (· == '"') (cs.drop (run (· == '$') cs))) :
    Chosen .rawString cs
      (cs.drop (run (· == '$') cs + run (· == '"') (cs.drop (run (· == '$') cs)))) := by
  have hopener : Group.rawString.opener.first? cs =
      some (cs.drop (run (· == '$') cs + run (· == '"') (cs.drop (run (· == '$') cs)))) := by
    rw [Regex.first?, ends_rawString_opener, ← List.drop_drop, drop_run, drop_run] at *
    exact first?_atLeast_sign h
  cases cs with
  | nil => contradiction
  | cons c cs =>
      have hstart : c = '$' ∨ c = '"' := by
        by_contra hne
        have hfalse : Group.rawString.startsWith c = false := by
          simpa [Group.startsWith] using hne
        exact ends_ne_nil_of_first? hopener (ends_opener_of_startsWith hfalse cs)
      rcases hstart with rfl | rfl
      · exact chosen_of_rivals [] (by decide) (List.forall_mem_nil _) hopener
      · exact chosen_of_rivals [] (by decide) (List.forall_mem_nil _) hopener

theorem ends_rawString_of_lt {cs : List Char}
    (h : run (· == '"') (cs.drop (run (· == '$') cs)) < 3) :
    Group.rawString.opener.ends cs = [] := by
  rw [drop_run] at h
  rw [ends_rawString_opener]
  exact ends_atLeast_sign h

theorem ends_verbatimString_of {cs : List Char} (hdollar : ∀ rest, cs ≠ '$' :: '@' :: '"' :: rest)
    (hat : ∀ rest, cs ≠ '@' :: '$' :: '"' :: rest) (hsingle : ∀ rest, cs ≠ '@' :: '"' :: rest) :
    Group.verbatimString.opener.ends cs = [] := by
  have hsigns : ∀ a b : Char, (∀ rest, cs ≠ a :: b :: '"' :: rest) →
      (seq (seq (sign a) (sign b)) (sign '"')).ends cs = [] := by
    intro a b h
    rw [ends_seq_assoc]
    refine ends_sign_seq_of fun mid hmid => ends_signs_of_ne fun rest hrest => ?_
    exact h rest (by rw [hmid, hrest])
  rw [Group.opener, ends_alt_seq, ends_alt_seq, hsigns _ _ hdollar, hsigns _ _ hat,
    ends_signs_of_ne hsingle]
  rfl

/-- A sign of its own at the start, which no word character follows. -/
theorem ends_identifier_at {cs : List Char} (h : ∀ c ∈ cs.head?, isWordStart c = false) :
    Group.identifier.opener.ends ('@' :: cs) = [] := by
  have hnext : (one isWordStart).ends cs = [] := by
    cases cs with
    | nil => rfl
    | cons c cs => rw [ends_one_cons, if_neg (Bool.eq_false_iff.1 (h c rfl))]
  rw [Group.opener, ends_option_seq, ends_seq, ends_sign_cons, List.flatMap_singleton, hnext]
  rfl

/-- A character that starts neither a comment nor a literal decides by its class. -/
theorem chosen_ofChar {c : Char} {cs : List Char}
    (hfail : isInlineBlank c = false →
      ∀ g ∈ Group.identifier.earlier, g.opener.ends (c :: cs) = [])
    (hnewline : Group.newline.opener.ends (c :: cs) = [])
    (hat : c = '@' → cs = []) (hcolons : ∀ rest, c :: cs ≠ ':' :: ':' :: rest) :
    ∃ g, (Opening.ofChar c).group? = some g ∧
      Chosen g (c :: cs) ((c :: cs).drop (Opening.ofChar c).lead) := by
  unfold Opening.ofChar
  split
  · rename_i hblank
    exact ⟨.whitespace, rfl, List.forall_mem_singleton.2 hnewline, first?_one hblank cs⟩
  · rename_i hblank
    have hearly := hfail (Bool.eq_false_iff.2 hblank)
    split
    · rename_i hword
      have hsign : c ≠ '@' := by
        rintro rfl
        contradiction
      exact ⟨.identifier, rfl, hearly, first?_seq
        (first?_option_of_nil (ends_sign_of_ne hsign cs)) (first?_one hword cs)⟩
    · rename_i hword
      have hidentifier : Group.identifier.opener.ends (c :: cs) = [] := by
        by_cases hsign : c = '@'
        · rw [hsign, hat hsign]
          exact ends_identifier_at (by simp)
        · exact ends_opener_of_startsWith (by simp [Group.startsWith, hsign, hword]) cs
      have hearlier : ∀ g ∈ Group.number.earlier, g.opener.ends (c :: cs) = [] :=
        List.forall_mem_append.2 ⟨hearly, List.forall_mem_singleton.2 hidentifier⟩
      split
      · rename_i hdigit
        exact ⟨.number, rfl, hearlier, first?_one hdigit cs⟩
      · rename_i hdigit
        have hnumber : Group.number.opener.ends (c :: cs) = [] := if_neg hdigit
        exact ⟨.punctuation, rfl,
          List.forall_mem_append.2 ⟨hearlier, List.forall_mem_singleton.2 hnumber⟩,
          (first?_alt_right (ends_signs_of_ne hcolons)).trans (first?_any c cs)⟩

theorem chosen_ofFront {c : Char} {cs : List Char}
    (hraw : Group.rawString.opener.ends (c :: cs) = []) :
    ∃ g, (Opening.ofFront (c :: cs)).group? = some g ∧
      Chosen g (c :: cs) ((c :: cs).drop (Opening.ofFront (c :: cs)).lead) := by
  unfold Opening.ofFront
  split
  case h_1 heq =>
    cases heq
    exact ⟨.newline, rfl, chosen_of_rivals [] (by decide) (List.forall_mem_nil _)
      (first?_alt_left (first?_seq (first?_sign '\r' _) (first?_sign '\n' _)))⟩
  case h_2 hfeed heq =>
    cases heq
    have hpair : (seq (sign '\r') (sign '\n')).ends ('\r' :: cs) = [] :=
      ends_signs_of_ne fun rest heq => hfeed rest (List.cons.inj heq).2
    exact ⟨.newline, rfl, chosen_of_rivals [] (by decide) (List.forall_mem_nil _)
      ((first?_alt_right hpair).trans ((first?_alt_right rfl).trans (first?_sign '\r' cs)))⟩
  case h_3 heq =>
    cases heq
    exact ⟨.newline, rfl, chosen_of_rivals [] (by decide) (List.forall_mem_nil _)
      ((first?_alt_right rfl).trans (first?_alt_left (first?_sign '\n' cs)))⟩
  case h_4 heq =>
    cases heq
    exact ⟨.lineComment, rfl, chosen_of_rivals [] (by decide) (List.forall_mem_nil _)
      (first?_seq (first?_sign '/' _) (first?_sign '/' _))⟩
  case h_5 heq =>
    cases heq
    exact ⟨.blockComment, rfl, chosen_of_rivals [.lineComment] (by decide)
      (List.forall_mem_singleton.2 rfl) (first?_seq (first?_sign '/' _) (first?_sign '*' _))⟩
  case h_6 heq =>
    cases heq
    exact ⟨.verbatimString, rfl, chosen_of_rivals [.rawString] (by decide)
      (List.forall_mem_singleton.2 hraw)
      (first?_seq (first?_alt_left (first?_seq (first?_sign '$' _) (first?_sign '@' _)))
        (first?_sign '"' _))⟩
  case h_7 heq =>
    cases heq
    exact ⟨.verbatimString, rfl, chosen_of_rivals [] (by decide) (List.forall_mem_nil _)
      (first?_seq ((first?_alt_right rfl).trans
        (first?_alt_left (first?_seq (first?_sign '@' _) (first?_sign '$' _))))
        (first?_sign '"' _))⟩
  case h_8 heq =>
    cases heq
    exact ⟨.verbatimString, rfl, chosen_of_rivals [] (by decide) (List.forall_mem_nil _)
      (first?_seq ((first?_alt_right rfl).trans ((first?_alt_right rfl).trans (first?_sign '@' _)))
        (first?_sign '"' _))⟩
  case h_9 heq =>
    cases heq
    exact ⟨.string, rfl, chosen_of_rivals [.rawString, .verbatimString] (by decide)
      (List.forall_mem_cons.2 ⟨hraw, List.forall_mem_singleton.2 rfl⟩)
      (first?_seq (first?_option_of_some (first?_sign '$' _)) (first?_sign '"' _))⟩
  case h_10 heq =>
    cases heq
    exact ⟨.string, rfl, chosen_of_rivals [.rawString] (by decide)
      (List.forall_mem_singleton.2 hraw)
      (first?_seq (first?_option_of_nil rfl) (first?_sign '"' _))⟩
  case h_11 heq =>
    cases heq
    exact ⟨.char, rfl, chosen_of_rivals [] (by decide) (List.forall_mem_nil _)
      (first?_sign '\'' _)⟩
  case h_12 d ds hdollar hsingle heq =>
    cases heq
    have hverbatim : Group.verbatimString.opener.ends ('@' :: d :: ds) = [] :=
      ends_verbatimString_of (fun rest heq => by cases heq) (fun rest heq => by
        cases heq
        exact hdollar rest rfl rfl) (fun rest heq => by
        cases heq
        exact hsingle rfl)
    split
    · rename_i hd
      exact ⟨.identifier, rfl, chosen_of_rivals [.verbatimString] (by decide)
        (List.forall_mem_singleton.2 hverbatim)
        (first?_seq (first?_option_of_some (first?_sign '@' _)) (first?_one hd ds))⟩
    · rename_i hd
      have hidentifier : Group.identifier.opener.ends ('@' :: d :: ds) = [] :=
        ends_identifier_at (by simpa using hd)
      exact ⟨.punctuation, rfl, chosen_of_rivals [.verbatimString, .identifier] (by decide)
        (List.forall_mem_cons.2 ⟨hverbatim, List.forall_mem_singleton.2 hidentifier⟩)
        ((first?_alt_right rfl).trans (first?_any '@' _))⟩
  case h_13 heq =>
    cases heq
    exact ⟨.punctuation, rfl, chosen_of_rivals [] (by decide) (List.forall_mem_nil _)
      (first?_alt_left (first?_seq (first?_sign ':' _) (first?_sign ':' _)))⟩
  case h_14 heq =>
    cases heq
    rename_i hreturn hfeed hquote hapostrophe _ hline hblock hdollarAt hatDollar hatQuote
      hdollarQuote hat hcolons
    have hpair : ∀ {a b : Char}, (∀ tail, c = a → cs = b :: tail → False) →
        (seq (sign a) (sign b)).ends (c :: cs) = [] := by
      intro a b h
      exact ends_signs_of_ne fun rest heq => h rest (List.cons.inj heq).1 (List.cons.inj heq).2
    have hnewline : Group.newline.opener.ends (c :: cs) = [] :=
      ends_opener_of_startsWith (by simpa [Group.startsWith, isBreak] using ⟨hfeed, hreturn⟩) cs
    have hverbatim : Group.verbatimString.opener.ends (c :: cs) = [] :=
      ends_verbatimString_of
        (fun rest heq => hdollarAt rest (List.cons.inj heq).1 (List.cons.inj heq).2)
        (fun rest heq => hatDollar rest (List.cons.inj heq).1 (List.cons.inj heq).2)
        (fun rest heq => hatQuote rest (List.cons.inj heq).1 (List.cons.inj heq).2)
    have hstring : Group.string.opener.ends (c :: cs) = [] := by
      rw [Group.opener, ends_option_seq, hpair hdollarQuote, ends_sign_of_ne hquote]
      rfl
    refine chosen_ofChar (fun hblank g hg => ?_) hnewline (fun hc => ?_) fun rest heq => ?_
    · cases g with
      | newline => exact hnewline
      | whitespace => exact ends_opener_of_startsWith (g := .whitespace) hblank cs
      | lineComment => exact hpair hline
      | blockComment => exact hpair hblock
      | rawString => exact hraw
      | verbatimString => exact hverbatim
      | string => exact hstring
      | char => exact ends_sign_of_ne hapostrophe cs
      | identifier | number | punctuation => exact absurd hg (by decide)
    · cases cs with
      | nil => rfl
      | cons d ds => exact absurd rfl (hat d ds hc)
    · exact hcolons rest (List.cons.inj heq).1 (List.cons.inj heq).2
  case h_15 heq => contradiction

theorem Opening.ofText_false (cs : List Char) :
    Opening.ofText false cs =
      if 3 ≤ run (· == '"') (cs.drop (run (· == '$') cs)) then
        .rawString (run (· == '$') cs + run (· == '"') (cs.drop (run (· == '$') cs)))
      else Opening.ofFront cs := rfl

theorem chosen_ofText (c : Char) (cs : List Char) :
    ∃ g, (Opening.ofText false (c :: cs)).group? = some g ∧
      Chosen g (c :: cs) ((c :: cs).drop (Opening.ofText false (c :: cs)).lead) := by
  rw [Opening.ofText_false]
  split
  · rename_i hquotes
    exact ⟨.rawString, rfl, chosen_rawString hquotes⟩
  · rename_i hquotes
    exact chosen_ofFront (ends_rawString_of_lt (Nat.not_le.1 hquotes))

/-- The first match of the pattern is the first lexeme of the text. -/
theorem firstMatch?_cons (c : Char) (cs : List Char) :
    ∃ g, (Opening.ofText false (c :: cs)).group? = some g ∧
      firstMatch? (c :: cs) =
        some (g, (c :: cs).drop (length (Opening.ofText false (c :: cs)) (c :: cs))) := by
  obtain ⟨g, hg, hchosen⟩ := chosen_ofText c cs
  refine ⟨g, hg, ?_⟩
  rw [length, ← List.drop_drop]
  exact hchosen.firstMatch?_eq (first?_body hg _)

theorem firstMatch?_nil : firstMatch? [] = none := by
  have hopener : ∀ g : Group, g.opener.ends [] = [] := by
    intro g
    cases g with
    | rawString => exact ends_rawString_of_lt (by decide)
    | _ => rfl
  have hnone : (Group.all.flatMap fun g => (g.regex.ends []).map fun rest => (g, rest)) = [] := by
    refine List.flatMap_eq_nil_iff.2 fun g _ => ?_
    rw [Group.regex, ends_seq_eq_nil (hopener g), List.map_nil]
  rw [firstMatch?, hnone, List.head?_nil]

end UsingStyle.Lexeme
