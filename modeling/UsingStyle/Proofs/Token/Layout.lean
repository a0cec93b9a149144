import UsingStyle.Proofs.Token.Kinds

/-! # Laid out text

A text is laid out as a row of pieces, each of which is meant to be one token. The lexer gives back
the pieces if each of them stands before the next one: it may not go on into the characters that
follow. Which characters those are depends on the kind of the piece, a word for instance ends before
every character that is no word character.
-/

namespace UsingStyle

open Text Lexeme

/-! ## Classes of characters -/

/-- No blank belongs to a class that holds no blank below `0x80`, and from there on is a table
without a code point of a blank. -/
theorem eq_false_of_isBlank {q : Char → Bool} {table : List (Nat × Nat)}
    (hlow : ∀ n, n < 0x80 → isBlank (Char.ofNat n) = true → q (Char.ofNat n) = false)
    (hhigh : ∀ c : Char, ¬ c.toNat < 0x80 → q c = inRanges table c)
    (hapart : ∀ r ∈ blankTable, ∀ s ∈ table, r.2 < s.1 ∨ s.2 < r.1) {c : Char}
    (h : isBlank c = true) : q c = false := by
  by_cases hascii : c.toNat < 0x80
  · have hc := hlow c.toNat hascii
    rw [Char.ofNat_toNat] at hc
    exact hc h
  · rw [hhigh c hascii, Bool.eq_false_iff]
    intro hword
    obtain ⟨r, hr, hrlow, hrhigh⟩ := inRanges_iff.1 h
    obtain ⟨s, hs, hslow, hshigh⟩ := inRanges_iff.1 hword
    have hdisjoint := hapart r hr s hs
    omega

theorem isWord_eq_false_of_isBlank {c : Char} (h : isBlank c = true) : isWord c = false :=
  eq_false_of_isBlank (q := isWord) (by decide +kernel) (fun _ hhigh => if_neg hhigh)
    (by decide +kernel) h

theorem isDigit_eq_false_of_isBlank {c : Char} (h : isBlank c = true) : isDigit c = false :=
  eq_false_of_isBlank (q := isDigit) (by decide +kernel) (fun _ hhigh => if_neg hhigh)
    (by decide +kernel) h

theorem isInlineBlank_eq_false_of_isWord {c : Char} (h : isWord c = true) :
    isInlineBlank c = false := by
  cases hblank : isBlank c with
  | false => simp [isInlineBlank, hblank]
  | true =>
      rw [isWord_eq_false_of_isBlank hblank] at h
      contradiction

theorem isBreak_eq_false_of_isWord {c : Char} (h : isWord c = true) : isBreak c = false := by
  cases hbreak : isBreak c with
  | false => rfl
  | true =>
      rw [isWord_eq_false_of_isBlank (isBlank_of_isBreak hbreak)] at h
      contradiction

theorem ne_of_isWordStart {c d : Char} (h : isWordStart c = true) (hd : isWordStart d = false) :
    c ≠ d := by
  rintro rfl
  rw [hd] at h
  contradiction

/-! ## Pieces -/

/-- Characters that are meant to be one token. -/
structure Piece where
  kind : TokenKind
  text : List Char

namespace Piece

def chars (ps : List Piece) : List Char :=
  ps.flatMap Piece.text

/-- The place behind the pieces. -/
def stop (p : Position) (ps : List Piece) : Position :=
  ps.foldl (fun q a => q.advance a.text) p

/-- The tokens of the pieces, the first of which starts at `p`. -/
def tokens (p : Position) : List Piece → List Token
  | [] => []
  | a :: ps => ⟨a.kind, String.ofList a.text, p⟩ :: tokens (p.advance a.text) ps

/-- Whether the line is still blank behind the pieces. -/
def freshAfter (fresh : Bool) (ps : List Piece) : Bool :=
  ps.foldl (fun f a => a.kind.keepsFresh f) fresh

@[simp] theorem chars_nil : chars [] = [] := rfl

@[simp] theorem chars_cons (a : Piece) (ps : List Piece) : chars (a :: ps) = a.text ++ chars ps :=
  List.flatMap_cons

@[simp] theorem chars_append (ps qs : List Piece) : chars (ps ++ qs) = chars ps ++ chars qs :=
  List.flatMap_append

@[simp] theorem stop_nil (p : Position) : stop p [] = p := rfl

@[simp] theorem stop_cons (p : Position) (a : Piece) (ps : List Piece) :
    stop p (a :: ps) = stop (p.advance a.text) ps := rfl

@[simp] theorem stop_append (p : Position) (ps qs : List Piece) :
    stop p (ps ++ qs) = stop (stop p ps) qs :=
  List.foldl_append

theorem offset_stop (p : Position) (ps : List Piece) :
    (stop p ps).offset = p.offset + (chars ps).length := by
  induction ps generalizing p with
  | nil => rfl
  | cons a ps ih =>
      rw [stop_cons, ih, Position.offset_advance, chars_cons, List.length_append]
      omega

theorem tokens_append (p : Position) (ps qs : List Piece) :
    tokens p (ps ++ qs) = tokens p ps ++ tokens (stop p ps) qs := by
  induction ps generalizing p with
  | nil => rfl
  | cons a ps ih => rw [List.cons_append, tokens, ih, tokens, List.cons_append, stop_cons]

/-- The lexer reads the piece, no more and no less, when `rest` follows. -/
structure StandsBefore (a : Piece) (rest : List Char) : Prop where
  ne_nil : a.text ≠ []
  kind_eq : ∀ fresh, (Opening.ofText fresh (a.text ++ rest)).kind = a.kind
  length_eq : ∀ fresh,
    Lexeme.length (Opening.ofText fresh (a.text ++ rest)) (a.text ++ rest) = a.text.length

/-- Each piece stands before the pieces and characters behind it. -/
def Separated : List Piece → List Char → Prop
  | [], _ => True
  | a :: ps, rest => a.StandsBefore (chars ps ++ rest) ∧ Separated ps rest

theorem separated_append {ps qs : List Piece} {rest : List Char}
    (hps : Separated ps (chars qs ++ rest)) (hqs : Separated qs rest) :
    Separated (ps ++ qs) rest := by
  induction ps with
  | nil => exact hqs
  | cons a ps ih =>
      have hfirst : a.StandsBefore (chars (ps ++ qs) ++ rest) := by
        rw [chars_append, List.append_assoc]
        exact hps.1
      exact ⟨hfirst, ih hps.2⟩

theorem tokensFrom_piece {a : Piece} {rest : List Char} (h : a.StandsBefore rest) (p : Position)
    (fresh : Bool) :
    tokensFrom p fresh (a.text ++ rest) = ⟨a.kind, String.ofList a.text, p⟩ ::
      tokensFrom (p.advance a.text) (a.kind.keepsFresh fresh) rest := by
  have hkind := h.kind_eq fresh
  have hlength := h.length_eq fresh
  have htake : (a.text ++ rest).take a.text.length = a.text := List.take_left
  have hdrop : (a.text ++ rest).drop a.text.length = rest := List.drop_left
  cases htext : a.text ++ rest with
  | nil => exact absurd (List.append_eq_nil_iff.1 htext).1 h.ne_nil
  | cons c cs =>
      rw [htext] at hkind hlength htake hdrop
      rw [tokensFrom]
      simp only [hkind, hlength, htake, hdrop]

/-- The lexer gives back the pieces of a laid out text. -/
theorem tokensFrom_chars {ps : List Piece} {rest : List Char} (h : Separated ps rest)
    (p : Position) (fresh : Bool) :
    tokensFrom p fresh (chars ps ++ rest) =
      tokens p ps ++ tokensFrom (stop p ps) (freshAfter fresh ps) rest := by
  induction ps generalizing p fresh with
  | nil => rfl
  | cons a ps ih =>
      rw [chars_cons, List.append_assoc, tokensFrom_piece h.1, ih h.2, tokens, List.cons_append]
      rfl

end Piece

/-! ## Places in a laid out line -/

theorem advance_of_inline {w : List Char} (h : ∀ c ∈ w, isBreak c = false) (p : Position) :
    p.advance w = ⟨p.line, p.column + w.length, p.offset + w.length⟩ := by
  fun_induction Position.advance p w with
  | case1 p => rfl
  | case2 p w ih => exact absurd (h '\r' List.mem_cons_self) (by decide)
  | case3 p w _ ih => exact absurd (h '\r' List.mem_cons_self) (by decide)
  | case4 p w ih => exact absurd (h '\n' List.mem_cons_self) (by decide)
  | case5 p c w _ _ _ ih =>
      rw [ih (fun d hd => h d (List.mem_cons_of_mem c hd)), List.length_cons]
      simp only [Position.right, Position.mk.injEq, true_and]
      omega

namespace Piece

/-- The pieces stay on one line. -/
def Inline (ps : List Piece) : Prop :=
  ∀ c ∈ chars ps, isBreak c = false

instance (ps : List Piece) : Decidable (Inline ps) :=
  List.decidableBAll (fun c => isBreak c = false) (chars ps)

theorem inline_append {ps qs : List Piece} (hps : Inline ps) (hqs : Inline qs) :
    Inline (ps ++ qs) := by
  intro c hc
  rw [chars_append, List.mem_append] at hc
  rcases hc with hc | hc
  · exact hps c hc
  · exact hqs c hc

theorem inline_cons {a : Piece} {ps : List Piece} (ha : Inline [a]) (hps : Inline ps) :
    Inline (a :: ps) :=
  inline_append ha hps

theorem inline_nil : Inline [] := by
  intro c hc
  contradiction

theorem stop_of_inline {ps : List Piece} (h : Inline ps) (p : Position) :
    stop p ps = ⟨p.line, p.column + (chars ps).length, p.offset + (chars ps).length⟩ := by
  induction ps generalizing p with
  | nil => rfl
  | cons a ps ih =>
      have ha : ∀ c ∈ a.text, isBreak c = false := by
        intro c hc
        exact h c (by rw [chars_cons]; exact List.mem_append_left _ hc)
      have hps : Inline ps := by
        intro c hc
        exact h c (by rw [chars_cons]; exact List.mem_append_right _ hc)
      rw [stop_cons, ih hps, advance_of_inline ha, chars_cons, List.length_append]
      simp only [Position.mk.injEq, true_and]
      omega

end Piece

/-! ## Openings that one or two characters decide -/

theorem ofText_of_ne {c : Char} (hsharp : c ≠ '#') (hdollar : c ≠ '$') (hquote : c ≠ '"')
    (fresh : Bool) (cs : List Char) :
    Opening.ofText fresh (c :: cs) = Opening.ofFront (c :: cs) := by
  simp [Opening.ofText, run, hsharp, hdollar, hquote]

theorem ofText_inlineBlank {c : Char} (h : isInlineBlank c = true) (fresh : Bool)
    (cs : List Char) : Opening.ofText fresh (c :: cs) = .blank := by
  have hne : ∀ d : Char, isInlineBlank d = false → c ≠ d := by
    rintro d hd rfl
    rw [h] at hd
    contradiction
  rw [ofText_of_ne (hne '#' (by decide)) (hne '$' (by decide)) (hne '"' (by decide))]
  unfold Opening.ofFront
  split
  case h_14 heq =>
    cases heq
    simp [Opening.ofChar, h]
  case h_15 heq => contradiction
  all_goals
    rename_i heq
    cases heq
    exact absurd h (by decide)

theorem ofFront_wordStart {c : Char} (h : isWordStart c = true) (cs : List Char) :
    Opening.ofFront (c :: cs) = .identifier 1 := by
  have hword : isWord c = true := (Bool.and_eq_true_iff.1 h).1
  have hblank := isInlineBlank_eq_false_of_isWord hword
  unfold Opening.ofFront
  split
  case h_14 heq =>
    cases heq
    simp [Opening.ofChar, hblank, h]
  case h_15 heq => contradiction
  all_goals
    rename_i heq
    cases heq
    exact absurd h (by decide)

theorem ofFront_verbatimWord {c : Char} (h : isWordStart c = true) (cs : List Char) :
    Opening.ofFront ('@' :: c :: cs) = .identifier 2 := by
  unfold Opening.ofFront
  split
  case h_12 heq =>
    cases heq
    exact if_pos h
  case h_14 hat _ heq =>
    cases heq
    exact absurd rfl (hat c cs rfl)
  all_goals
    rename_i heq
    cases heq
  all_goals exact absurd h (by decide)

/-! ## Pieces of each kind -/

/-- An identifier: a word that does not start with a digit, alone or behind `@`. -/
def spellsIdentifier : List Char → Bool
  | '@' :: c :: cs => isWordStart c && cs.all isWord
  | c :: cs => isWordStart c && cs.all isWord
  | [] => false

namespace Piece

def word (w : List Char) : Piece := ⟨.identifier, w⟩

def symbol (w : List Char) : Piece := ⟨.punctuation, w⟩

/-- One blank and `more` further ones. -/
def blank (more : Nat) : Piece := ⟨.whitespace, ' ' :: List.replicate more ' '⟩

def comment (body : List Char) : Piece := ⟨.lineComment, '/' :: '/' :: body⟩

def lineFeed : Piece := ⟨.newline, ['\n']⟩

theorem run_append_of_all {q : Char → Bool} {w rest : List Char} (hw : ∀ c ∈ w, q c = true)
    (hrest : ∀ c ∈ rest.head?, q c = false) : run q (w ++ rest) = w.length := by
  have hstop : rest.takeWhile q = [] := by
    cases rest with
    | nil => rfl
    | cons c rest => simp [hrest c rfl]
  rw [run, List.takeWhile_append_of_pos hw, hstop, List.append_nil]

theorem standsBefore_of_opening {a : Piece} {rest : List Char} {o : Opening} (hne : a.text ≠ [])
    (ho : ∀ fresh, Opening.ofText fresh (a.text ++ rest) = o) (hkind : o.kind = a.kind)
    (hlength : Lexeme.length o (a.text ++ rest) = a.text.length) : a.StandsBefore rest := by
  constructor
  · exact hne
  · intro fresh
    rw [ho, hkind]
  · intro fresh
    rw [ho, hlength]

theorem standsBefore_word {w rest : List Char} (hw : spellsIdentifier w = true)
    (hrest : ∀ c ∈ rest.head?, isWord c = false) : (word w).StandsBefore rest := by
  unfold spellsIdentifier at hw
  split at hw
  · rename_i c cs
    have hc := Bool.and_eq_true_iff.1 hw
    have hrun := run_append_of_all (List.all_eq_true.1 hc.2) hrest
    apply standsBefore_of_opening (o := .identifier 2)
    · exact List.cons_ne_nil _ _
    · intro fresh
      show Opening.ofText fresh ('@' :: c :: (cs ++ rest)) = .identifier 2
      rw [ofText_of_ne (by decide) (by decide) (by decide), ofFront_verbatimWord hc.1]
    · rfl
    · show 2 + run isWord (cs ++ rest) = (cs.length + 1) + 1
      omega
  · rename_i c cs _
    have hc := Bool.and_eq_true_iff.1 hw
    have hrun := run_append_of_all (List.all_eq_true.1 hc.2) hrest
    have hsharp := ne_of_isWordStart hc.1 (show isWordStart '#' = false by decide)
    have hdollar := ne_of_isWordStart hc.1 (show isWordStart '$' = false by decide)
    have hquote := ne_of_isWordStart hc.1 (show isWordStart '"' = false by decide)
    apply standsBefore_of_opening (o := .identifier 1)
    · exact List.cons_ne_nil _ _
    · intro fresh
      show Opening.ofText fresh (c :: (cs ++ rest)) = .identifier 1
      rw [ofText_of_ne hsharp hdollar hquote, ofFront_wordStart hc.1]
    · rfl
    · show 1 + run isWord (cs ++ rest) = cs.length + 1
      omega
  · contradiction

theorem standsBefore_symbol {c : Char} (hc : c ∈ ['.', '<', '>', ',', ';', '='])
    (rest : List Char) : (symbol [c]).StandsBefore rest := by
  have hfront : ∀ fresh, Opening.ofText fresh (c :: rest) = .symbol 1 := by
    intro fresh
    simp only [List.mem_cons, List.not_mem_nil, or_false] at hc
    rcases hc with rfl | rfl | rfl | rfl | rfl | rfl
    all_goals
      rw [ofText_of_ne (by decide) (by decide) (by decide)]
      rfl
  exact standsBefore_of_opening (List.cons_ne_nil _ _) hfront rfl rfl

theorem standsBefore_colons (rest : List Char) : (symbol [':', ':']).StandsBefore rest := by
  have hfront : ∀ fresh, Opening.ofText fresh (':' :: ':' :: rest) = .symbol 2 := by
    intro fresh
    rw [ofText_of_ne (by decide) (by decide) (by decide)]
    rfl
  exact standsBefore_of_opening (List.cons_ne_nil _ _) hfront rfl rfl

theorem standsBefore_whitespace {w rest : List Char} (hne : w ≠ [])
    (hw : ∀ c ∈ w, isInlineBlank c = true) (hrest : ∀ c ∈ rest.head?, isInlineBlank c = false) :
    (⟨.whitespace, w⟩ : Piece).StandsBefore rest := by
  obtain ⟨c, more, rfl⟩ := List.exists_cons_of_ne_nil hne
  have hc : isInlineBlank c = true := hw c List.mem_cons_self
  have hrun := run_append_of_all (fun d hd => hw d (List.mem_cons_of_mem c hd)) hrest
  apply standsBefore_of_opening (o := .blank)
  · exact hne
  · intro fresh
    exact ofText_inlineBlank hc fresh (more ++ rest)
  · rfl
  · show 1 + run isInlineBlank (more ++ rest) = more.length + 1
    omega

theorem standsBefore_blank (more : Nat) {rest : List Char}
    (hrest : ∀ c ∈ rest.head?, isInlineBlank c = false) : (blank more).StandsBefore rest := by
  have hall : ∀ c ∈ ' ' :: List.replicate more ' ', isInlineBlank c = true := by
    intro c hc
    rw [← List.replicate_succ] at hc
    rw [List.eq_of_mem_replicate hc]
    decide
  exact standsBefore_whitespace (List.cons_ne_nil _ _) hall hrest

theorem standsBefore_comment {body rest : List Char} (hbody : ∀ c ∈ body, isBreak c = false)
    (hrest : ∀ c ∈ rest.head?, isBreak c = true) : (comment body).StandsBefore rest := by
  have hall : ∀ c ∈ body, (!isBreak c) = true := by
    intro c hc
    rw [hbody c hc]
    rfl
  have hstop : ∀ c ∈ rest.head?, (!isBreak c) = false := by
    intro c hc
    rw [hrest c hc]
    rfl
  have hrun : run (fun c => !isBreak c) (body ++ rest) = body.length :=
    run_append_of_all hall hstop
  apply standsBefore_of_opening (o := .lineComment)
  · exact List.cons_ne_nil _ _
  · intro fresh
    show Opening.ofText fresh ('/' :: '/' :: (body ++ rest)) = .lineComment
    rw [ofText_of_ne (by decide) (by decide) (by decide)]
    rfl
  · rfl
  · show 2 + run (fun c => !isBreak c) (body ++ rest) = (body.length + 1) + 1
    omega

theorem standsBefore_lineFeed (rest : List Char) : lineFeed.StandsBefore rest := by
  have hfront : ∀ fresh, Opening.ofText fresh ('\n' :: rest) = .lineBreak 1 := by
    intro fresh
    rw [ofText_of_ne (by decide) (by decide) (by decide)]
    rfl
  exact standsBefore_of_opening (List.cons_ne_nil _ _) hfront rfl rfl

end Piece
end UsingStyle
