import UsingStyle.Proofs.Token.Partition

/-! # How lexemes end

A carriage return and the line feed behind it belong to one lexeme, with one exception: in a string
or character literal a backslash takes the carriage return alone, and the line feed ends the
literal. Every other lexeme that can hold a line break runs to its closing characters or to the end
of the text.
-/

namespace UsingStyle.Lexeme

open Text

/-! ## Characters of a run -/

theorem take_run (p : Char → Bool) (cs : List Char) : cs.take (run p cs) = cs.takeWhile p :=
  (List.prefix_iff_eq_take.1 (List.takeWhile_prefix p)).symm

theorem getLast?_take_run {p : Char → Bool} {c : Char} (hc : p c = false) (cs : List Char) :
    (cs.take (run p cs)).getLast? ≠ some c := by
  intro h
  rw [take_run] at h
  have hmem := List.mem_of_getLast? h
  have hall := List.all_eq_true.1 (List.all_takeWhile (p := p) (l := cs)) c hmem
  rw [hc] at hall
  contradiction

/-! ## Closing characters -/

theorem getLast?_blockComment (cs : List Char) :
    cs.drop (blockCommentRest cs) = [] ∨
      (cs.take (blockCommentRest cs)).getLast? = some '/' := by
  fun_induction blockCommentRest cs with
  | case1 cs => exact .inr rfl
  | case2 c cs _ ih =>
      rcases ih with hend | hclosed
      · exact .inl hend
      · right
        rw [List.take_succ_cons, List.getLast?_cons, hclosed]
        rfl
  | case3 => exact .inl rfl

theorem getLast?_rawString (cs : List Char) :
    cs.drop (rawStringRest cs) = [] ∨ (cs.take (rawStringRest cs)).getLast? = some '"' := by
  fun_induction rawStringRest cs with
  | case1 cs =>
      right
      have hrun : cs.take (run (· == '"') cs) = cs.takeWhile (· == '"') := take_run _ cs
      have hall : ∀ c ∈ '"' :: '"' :: '"' :: cs.takeWhile (· == '"'), c = '"' := by
        intro c hc
        simp only [List.mem_cons] at hc
        rcases hc with rfl | rfl | rfl | hc
        · rfl
        · rfl
        · rfl
        · simpa using List.all_eq_true.1 (List.all_takeWhile (p := (· == '"')) (l := cs)) c hc
      rw [List.take_succ_cons, List.take_succ_cons, List.take_succ_cons, hrun]
      cases hlast : ('"' :: '"' :: '"' :: cs.takeWhile (· == '"')).getLast? with
      | none => simp at hlast
      | some c => rw [hall c (List.mem_of_getLast? hlast)]
  | case2 c cs _ ih =>
      rcases ih with hend | hclosed
      · exact .inl hend
      · right
        rw [List.take_succ_cons, List.getLast?_cons, hclosed]
        rfl
  | case3 => exact .inl rfl

theorem getLast?_verbatimString (cs : List Char) :
    cs.drop (verbatimStringRest cs) = [] ∨
      (cs.take (verbatimStringRest cs)).getLast? = some '"' := by
  fun_induction verbatimStringRest cs with
  | case1 cs ih =>
      rcases ih with hend | hclosed
      · exact .inl hend
      · right
        rw [List.take_succ_cons, List.take_succ_cons, List.getLast?_cons, List.getLast?_cons,
          hclosed]
        rfl
  | case2 cs _ => exact .inr rfl
  | case3 c cs _ _ ih =>
      rcases ih with hend | hclosed
      · exact .inl hend
      · right
        rw [List.take_succ_cons, List.getLast?_cons, hclosed]
        rfl
  | case4 => exact .inl rfl

theorem getLast?_number {c : Char} (hword : isWord c = false) (hdigit : isDigit c = false)
    (cs : List Char) : (cs.take (numberRest cs)).getLast? ≠ some c := by
  have hwhole := getLast?_take_run hword cs
  unfold numberRest
  dsimp only
  split
  · rename_i d ds hdrop
    split
    · rename_i hfirst
      have hfraction := getLast?_take_run hword ds
      have htake : (cs.drop (run isWord cs)).take (2 + run isWord ds) =
          '.' :: d :: ds.take (run isWord ds) := by
        rw [hdrop, Nat.add_comm, List.take_succ_cons, List.take_succ_cons]
      have hd : d ≠ c := by
        rintro rfl
        rw [hdigit] at hfirst
        contradiction
      rw [Nat.add_assoc, List.take_add, htake, List.getLast?_append, List.getLast?_cons_cons,
        List.getLast?_cons]
      cases hlast : (ds.take (run isWord ds)).getLast? with
      | none => simpa using hd
      | some e =>
          rw [hlast] at hfraction
          simpa using hfraction
    · exact hwhole
  · exact hwhole

/-- A carriage return can end a literal only behind a backslash. -/
theorem escaped_of_getLast? {delimiter : Char} (hdelimiter : delimiter ≠ '\r') {cs : List Char}
    (h : (cs.take (escapedRest delimiter cs)).getLast? = some '\r') :
    ['\\', '\r'] <:+ cs.take (escapedRest delimiter cs) := by
  fun_induction escapedRest delimiter cs with
  | case1 c cs ih =>
      rw [List.take_succ_cons, List.take_succ_cons] at h ⊢
      by_cases hnil : cs.take (escapedRest delimiter cs) = []
      · rw [hnil] at h ⊢
        cases h
        exact List.suffix_refl _
      · have hlast : (cs.take (escapedRest delimiter cs)).getLast? = some '\r' := by
          rw [← h, List.getLast?_cons_of_ne_nil (by simp), List.getLast?_cons_of_ne_nil hnil]
        exact (ih hlast).trans ⟨['\\', c], rfl⟩
  | case2 c cs _ hc =>
      cases h
      exact absurd (beq_iff_eq.1 hc).symm hdelimiter
  | case3 c cs _ _ _ => simp at h
  | case4 c cs _ _ hplain ih =>
      rw [List.take_succ_cons] at h ⊢
      by_cases hnil : cs.take (escapedRest delimiter cs) = []
      · rw [hnil] at h
        cases h
        contradiction
      · rw [List.getLast?_cons_of_ne_nil hnil] at h
        exact (ih h).trans (List.suffix_cons c _)
  | case5 => simp at h

/-! ## The rest of a lexeme -/

theorem escaped_of_rest {o : Opening} {cs : List Char}
    (h : (cs.take (rest o cs)).getLast? = some '\r')
    (hnext : (cs.drop (rest o cs)).head? = some '\n') :
    (o.kind = .string ∨ o.kind = .char) ∧ ['\\', '\r'] <:+ cs.take (rest o cs) := by
  have hopen : cs.drop (rest o cs) ≠ [] := by
    intro hnil
    rw [hnil] at hnext
    contradiction
  cases o with
  | lineBreak _ => simp [rest] at h
  | blank => exact absurd h (getLast?_take_run (by decide) cs)
  | lineComment => exact absurd h (getLast?_take_run (by decide) cs)
  | blockComment =>
      have hslash := (getLast?_blockComment cs).resolve_left hopen
      rw [rest, hslash] at h
      contradiction
  | preprocessor => exact absurd h (getLast?_take_run (by decide) cs)
  | rawString _ =>
      have hquote := (getLast?_rawString cs).resolve_left hopen
      rw [rest, hquote] at h
      contradiction
  | verbatimString _ =>
      have hquote := (getLast?_verbatimString cs).resolve_left hopen
      rw [rest, hquote] at h
      contradiction
  | string _ => exact ⟨.inl rfl, escaped_of_getLast? (by decide) h⟩
  | char => exact ⟨.inr rfl, escaped_of_getLast? (by decide) h⟩
  | identifier _ => exact absurd h (getLast?_take_run (by decide) cs)
  | number => exact absurd h (getLast?_number (by decide) (by decide) cs)
  | symbol _ => simp [rest] at h

/-! ## The opening of a lexeme -/

/-- An opening that ends in a carriage return is a line break of its own. -/
theorem Opening.eq_lineBreak_of_ofFront {cs : List Char}
    (h : (cs.take (ofFront cs).lead).getLast? = some '\r') :
    ofFront cs = .lineBreak 1 ∧ (cs.drop 1).head? ≠ some '\n' := by
  unfold ofFront at h ⊢
  split at h
  case h_2 cs hfeed =>
    refine ⟨rfl, ?_⟩
    intro hnext
    cases cs with
    | nil => simp at hnext
    | cons d cs =>
        cases hnext
        exact hfeed cs rfl
  case h_12 =>
    split at h
    · rename_i hword
      simp [lead] at h
      rw [h] at hword
      contradiction
    · simp [lead] at h
  case h_14 c cs _ hreturn _ _ _ _ _ _ _ _ _ _ _ =>
    rw [lead_ofChar] at h
    cases h
    exact absurd rfl hreturn
  all_goals simp [lead] at h

theorem Opening.eq_lineBreak_of_ofText {fresh : Bool} {cs : List Char}
    (h : (cs.take (ofText fresh cs).lead).getLast? = some '\r') :
    ofText fresh cs = .lineBreak 1 ∧ (cs.drop 1).head? ≠ some '\n' := by
  unfold ofText at h ⊢
  split at h
  · rename_i hsharp
    cases cs with
    | nil => simp at hsharp
    | cons c cs =>
        have hc : c = '#' := by simpa using (Bool.and_eq_true_iff.1 hsharp).2
        subst hc
        simp [lead] at h
  · rename_i hsharp
    rw [if_neg hsharp]
    dsimp only at h ⊢
    split at h
    · -- the opening of a raw string has no other characters than `$` and `"`
      have hdollars := getLast?_take_run (p := (· == '$')) (c := '\r') (by decide) cs
      have hquotes := getLast?_take_run (p := (· == '"')) (c := '\r') (by decide)
        (cs.drop (run (· == '$') cs))
      rw [lead, List.take_add, List.getLast?_append] at h
      cases hlast : ((cs.drop (run (· == '$') cs)).take
          (run (· == '"') (cs.drop (run (· == '$') cs)))).getLast? with
      | none =>
          rw [hlast] at h
          exact absurd h hdollars
      | some c =>
          rw [hlast] at h hquotes
          exact absurd h hquotes
    · rename_i hquotes
      rw [if_neg hquotes]
      exact eq_lineBreak_of_ofFront h

/-! ## Whole lexemes -/

/-- A lexeme that ends between a carriage return and a line feed is a literal, and its last two
characters are a backslash and the carriage return. -/
theorem escaped_of_length {fresh : Bool} {cs : List Char}
    (h : (cs.take (length (Opening.ofText fresh cs) cs)).getLast? = some '\r')
    (hnext : (cs.drop (length (Opening.ofText fresh cs) cs)).head? = some '\n') :
    ((Opening.ofText fresh cs).kind = .string ∨ (Opening.ofText fresh cs).kind = .char) ∧
      ['\\', '\r'] <:+ cs.take (length (Opening.ofText fresh cs) cs) := by
  unfold length at h hnext ⊢
  rw [List.take_add] at h ⊢
  rw [← List.drop_drop] at hnext
  by_cases hnil : (cs.drop (Opening.ofText fresh cs).lead).take
      (rest (Opening.ofText fresh cs) (cs.drop (Opening.ofText fresh cs).lead)) = []
  · rw [hnil, List.append_nil] at h
    have hbreak := Opening.eq_lineBreak_of_ofText h
    rw [hbreak.1] at hnext
    exact absurd hnext hbreak.2
  · rw [List.getLast?_append_of_ne_nil _ hnil] at h
    have hescaped := escaped_of_rest h hnext
    exact ⟨hescaped.1, hescaped.2.trans (List.suffix_append _ _)⟩

end UsingStyle.Lexeme
