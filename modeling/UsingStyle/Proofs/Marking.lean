import UsingStyle.Marking
import UsingStyle.Proofs.Directive.Extent

/-! # Markings as they stand in the source

A marking is read from the trivia that the lexer finds behind a directive. It can be read off the
source as well: what follows the semicolon on its line, blanks apart, is the marking if it is a
comment, and a line comment that spells one of the two words has the kind of that word. A directive
of several lines has no marking.
-/

namespace UsingStyle

open Text Lexeme

/-! ## The first piece that is not blank -/

/-- The kind that a line has by its first characters. -/
def MarkingKind.ofLine? (line : List Char) : Option MarkingKind :=
  match line with
  | '/' :: '/' :: _ => some (ofPiece (String.ofList line))
  | '/' :: '*' :: _ => some .unknown
  | _ => none

namespace MarkingKind

theorem ofTrivia?_cons_of_blank {piece : String} (h : ∀ c ∈ piece.toList, isBlank c = true)
    (trivia : List String) : ofTrivia? (piece :: trivia) = ofTrivia? trivia := by
  have hall : piece.toList.all isBlank = true := List.all_eq_true.2 h
  simp [ofTrivia?, hall]

theorem ofTrivia?_cons_of_first {piece : String} {c : Char} (hpiece : piece.toList.head? = some c)
    (hc : isBlank c = false) (trivia : List String) :
    ofTrivia? (piece :: trivia) = some (ofPiece piece) := by
  obtain ⟨more, hmore⟩ := List.head?_eq_some_iff.1 hpiece
  have hall : piece.toList.all isBlank = false := by simp [hmore, hc]
  simp [ofTrivia?, hall]

end MarkingKind

theorem trailingOnLine_cons {t : Token} (h : t.kind.isTrailing = true) (ts : List Token) :
    trailingOnLine t.start.line (t :: ts) = t.text :: trailingOnLine t.start.line ts := by
  simp [trailingOnLine, h]

theorem trailingOnLine_of_head {ts : List Token} (h : ∀ t ∈ ts.head?, t.kind.isTrailing = false)
    (line : Nat) : trailingOnLine line ts = [] := by
  cases ts with
  | nil => rfl
  | cons t ts => simp [trailingOnLine, h t rfl]

/-- Trivia further down stands on another line. -/
theorem trailingOnLine_of_line_lt {line : Nat} {p : Position} (h : line < p.line) {cs : List Char}
    {ts : List Token} (hts : Tiling p cs ts) : trailingOnLine line ts = [] := by
  have hnone : ∀ t ∈ ts.takeWhile (fun t => t.kind.isTrailing),
      ¬ (t.start.line == line) = true := by
    intro t ht
    have hbefore := hts.start_eq_or_before ((List.takeWhile_sublist _).mem ht)
    rw [beq_iff_eq]
    rcases hbefore with rfl | hbefore
    · omega
    · unfold Position.Before at hbefore
      omega
  rw [trailingOnLine, List.filter_eq_nil_iff.2 hnone, List.map_nil]

/-! ## The kind of the token behind the blanks -/

namespace Lexeme.Opening

theorem isTrailing_ofChar {c : Char} (h : isInlineBlank c = false) :
    (ofChar c).kind.isTrailing = false := by
  unfold ofChar
  rw [h]
  simp only [Bool.false_eq_true, if_false]
  split
  · rfl
  · split <;> rfl

/-- Only blanks and comments are trailing. -/
theorem isTrailing_ofText {cs : List Char} (hblank : ∀ c ∈ cs.head?, isInlineBlank c = false)
    (hline : ¬ "//".toList <+: cs) (hblock : ¬ "/*".toList <+: cs) (fresh : Bool) :
    (ofText fresh cs).kind.isTrailing = false := by
  unfold ofText
  split
  · rfl
  · dsimp only
    split
    · rfl
    · unfold ofFront
      split
      case h_4 more _ _ => exact absurd ⟨more, rfl⟩ hline
      case h_5 more _ _ => exact absurd ⟨more, rfl⟩ hblock
      case h_12 => split <;> rfl
      case h_14 => exact isTrailing_ofChar (hblank _ rfl)
      all_goals rfl

end Lexeme.Opening

theorem kind_of_head? {p : Position} {fresh : Bool} {cs : List Char} {t : Token}
    (h : t ∈ (tokensFrom p fresh cs).head?) : t.kind = (Opening.ofText fresh cs).kind := by
  cases cs with
  | nil => simp [tokensFrom] at h
  | cons c cs =>
      rw [tokensFrom] at h
      cases h
      rfl

/-- The characters in front of the first line break. -/
def lineOf (cs : List Char) : List Char :=
  cs.takeWhile fun c => !isBreak c

theorem ofTrivia?_of_lineComment (p : Position) (fresh : Bool) (more : List Char) :
    MarkingKind.ofTrivia? (trailingOnLine p.line (tokensFrom p fresh ('/' :: '/' :: more))) =
      some (.ofPiece (String.ofList (lineOf ('/' :: '/' :: more)))) := by
  have hbody : ∀ c ∈ lineOf more, isBreak c = false := by
    intro c hc
    simpa using List.all_eq_true.1 List.all_takeWhile c hc
  have hrest : ∀ c ∈ (more.dropWhile fun c => !isBreak c).head?, isBreak c = true := by
    intro c hc
    simpa using eq_false_of_head?_dropWhile hc
  have hpiece := Piece.tokensFrom_piece (Piece.standsBefore_comment hbody hrest) p fresh
  have hcut : (Piece.comment (lineOf more)).text ++ (more.dropWhile fun c => !isBreak c) =
      '/' :: '/' :: more := by
    show '/' :: '/' :: (lineOf more ++ more.dropWhile fun c => !isBreak c) = _
    rw [lineOf, List.takeWhile_append_dropWhile]
  rw [hcut] at hpiece
  rw [hpiece, trailingOnLine_cons (t := ⟨_, _, p⟩) rfl,
    MarkingKind.ofTrivia?_cons_of_first (c := '/') (by rw [String.toList_ofList]; rfl) (by decide)]
  rfl

theorem ofTrivia?_of_blockComment (p : Position) (fresh : Bool) (more : List Char) :
    MarkingKind.ofTrivia? (trailingOnLine p.line (tokensFrom p fresh ('/' :: '*' :: more))) =
      some .unknown := by
  have hopening : Opening.ofText fresh ('/' :: '*' :: more) = .blockComment := by
    rw [ofText_of_ne (by decide) (by decide) (by decide)]
    rfl
  have hlength : Lexeme.length .blockComment ('/' :: '*' :: more) = blockCommentRest more + 2 :=
    Nat.add_comm _ _
  rw [tokensFrom]
  simp only [hopening, hlength, List.take_succ_cons]
  rw [trailingOnLine_cons (t := ⟨_, _, p⟩) rfl,
    MarkingKind.ofTrivia?_cons_of_first (c := '/') (by rw [String.toList_ofList]; rfl) (by decide)]
  simp [MarkingKind.ofPiece]

theorem ofLine?_eq_none {line : List Char} (hline : ¬ "//".toList <+: line)
    (hblock : ¬ "/*".toList <+: line) : MarkingKind.ofLine? line = none := by
  unfold MarkingKind.ofLine?
  split
  · exact absurd ⟨_, rfl⟩ hline
  · exact absurd ⟨_, rfl⟩ hblock
  · rfl

/-- The kind is read off the first characters of the line when they are not blank. -/
theorem ofTrivia?_of_front (p : Position) (fresh : Bool) {cs : List Char}
    (hblank : ∀ c ∈ cs.head?, isInlineBlank c = false) :
    MarkingKind.ofTrivia? (trailingOnLine p.line (tokensFrom p fresh cs)) =
      MarkingKind.ofLine? (lineOf cs) := by
  by_cases hline : "//".toList <+: cs
  · obtain ⟨more, rfl⟩ := hline
    exact ofTrivia?_of_lineComment p fresh more
  · by_cases hblock : "/*".toList <+: cs
    · obtain ⟨more, rfl⟩ := hblock
      exact ofTrivia?_of_blockComment p fresh more
    · have hhead : ∀ t ∈ (tokensFrom p fresh cs).head?, t.kind.isTrailing = false := by
        intro t ht
        rw [kind_of_head? ht]
        exact Opening.isTrailing_ofText hblank hline hblock fresh
      have hprefix : lineOf cs <+: cs := List.takeWhile_prefix _
      rw [trailingOnLine_of_head hhead, ofLine?_eq_none (fun h => hline (h.trans hprefix))
        (fun h => hblock (h.trans hprefix))]
      rfl

theorem lineOf_append_of_inline {w : List Char} (h : ∀ c ∈ w, isInlineBlank c = true)
    (cs : List Char) : lineOf (w ++ cs) = w ++ lineOf cs := by
  refine List.takeWhile_append_of_pos fun c hc => ?_
  exact (Bool.and_eq_true_iff.1 (h c hc)).2

theorem dropWhile_lineOf {cs : List Char} (h : ∀ c ∈ cs.head?, isInlineBlank c = false) :
    (lineOf cs).dropWhile isBlank = lineOf cs := by
  refine dropWhile_of_head? fun c hc => ?_
  cases cs with
  | nil => simp [lineOf] at hc
  | cons d cs =>
      have hd := h d rfl
      cases hbreak : isBreak d with
      | true => simp [lineOf, hbreak] at hc
      | false =>
          have hcd : c = d := by simpa [lineOf, hbreak, eq_comm] using hc
          simpa [isInlineBlank, hcd, hbreak] using hd

/-- What the trivia say is read off the rest of the line, blanks apart. -/
theorem ofTrivia?_trailingOnLine (p : Position) (fresh : Bool) (cs : List Char) :
    MarkingKind.ofTrivia? (trailingOnLine p.line (tokensFrom p fresh cs)) =
      MarkingKind.ofLine? ((lineOf cs).dropWhile isBlank) := by
  have hblanks : ∀ c ∈ cs.takeWhile isInlineBlank, isInlineBlank c = true :=
    List.all_eq_true.1 List.all_takeWhile
  have hrest : ∀ c ∈ (cs.dropWhile isInlineBlank).head?, isInlineBlank c = false :=
    fun _ hc => eq_false_of_head?_dropWhile hc
  have hblank : ∀ c ∈ cs.takeWhile isInlineBlank, isBlank c = true := by
    intro c hc
    exact (Bool.and_eq_true_iff.1 (hblanks c hc)).1
  have hcut : cs.takeWhile isInlineBlank ++ cs.dropWhile isInlineBlank = cs :=
    List.takeWhile_append_dropWhile
  have hline : (lineOf cs).dropWhile isBlank = lineOf (cs.dropWhile isInlineBlank) := by
    rw [← hcut, lineOf_append_of_inline hblanks, List.dropWhile_append_of_pos hblank, hcut,
      dropWhile_lineOf hrest]
  rw [hline]
  by_cases hnil : cs.takeWhile isInlineBlank = []
  · rw [hnil, List.nil_append] at hcut
    rw [hcut] at hrest ⊢
    exact ofTrivia?_of_front p fresh hrest
  · have hpiece := Piece.tokensFrom_piece (Piece.standsBefore_whitespace hnil hblanks hrest) p fresh
    have hinline : ∀ c ∈ cs.takeWhile isInlineBlank, isBreak c = false := by
      intro c hc
      simpa using (Bool.and_eq_true_iff.1 (hblanks c hc)).2
    have hsame : (p.advance (cs.takeWhile isInlineBlank)).line = p.line :=
      line_advance_eq_iff.2 hinline
    have hfront := ofTrivia?_of_front (p.advance (cs.takeWhile isInlineBlank))
      (TokenKind.whitespace.keepsFresh fresh) hrest
    rw [hsame] at hfront
    dsimp only at hpiece
    rw [hcut] at hpiece
    rw [hpiece, trailingOnLine_cons (t := ⟨_, _, p⟩) rfl,
      MarkingKind.ofTrivia?_cons_of_blank (by rwa [String.toList_ofList]), hfront]

/-! ## Lines that spell a marking -/

/-- Blanks, `//`, blanks, the word and blanks make up the line. -/
def SpellsMarking (word : String) (line : List Char) : Prop :=
  ∃ before between after, (∀ c ∈ before, isBlank c = true) ∧ (∀ c ∈ between, isBlank c = true) ∧
    (∀ c ∈ after, isBlank c = true) ∧
      line = before ++ ("//".toList ++ (between ++ (word.toList ++ after)))

/-- Behind its first blanks the line is empty or starts with other characters than a comment. -/
def OpensNoComment (line : List Char) : Prop :=
  line.dropWhile isBlank = [] ∨
    ¬ "//".toList <+: line.dropWhile isBlank ∧ ¬ "/*".toList <+: line.dropWhile isBlank

namespace MarkingKind

theorem ofKeyword_eq_iff {kind : MarkingKind} (h : kind ≠ unknown) (s : String) :
    ofKeyword s = kind ↔ s = kind.word := by
  unfold ofKeyword
  split
  · rename_i hs
    rw [hs]
    cases kind <;> simp [word]
  · rename_i hcant
    split
    · rename_i hs
      rw [hs]
      cases kind <;> simp [word]
    · rename_i hrenamed
      cases kind with
      | unknown => contradiction
      | cantAlias => simpa using hcant
      | renamed => simpa using hrenamed

theorem ofPiece_lineComment_eq_iff {kind : MarkingKind} (h : kind ≠ unknown) (cs : List Char) :
    ofPiece (String.ofList ('/' :: '/' :: cs)) = kind ↔ trim (String.ofList cs) = kind.word := by
  cases cs with
  | nil =>
      have hempty : trim (String.ofList []) = "" := by decide
      rw [hempty]
      cases kind with
      | unknown => contradiction
      | cantAlias => decide
      | renamed => decide
  | cons c cs =>
      rw [← ofKeyword_eq_iff h]
      simp [ofPiece]

theorem ofLine?_eq_some_iff {kind : MarkingKind} (h : kind ≠ unknown) (line : List Char) :
    ofLine? (line.dropWhile isBlank) = some kind ↔
      ∃ cs, line.dropWhile isBlank = '/' :: '/' :: cs ∧ trim (String.ofList cs) = kind.word := by
  unfold ofLine?
  split
  · rename_i cs heq
    simp only [heq, Option.some.injEq, List.cons.injEq, true_and, exists_eq_left']
    exact ofPiece_lineComment_eq_iff h cs
  · rename_i cs heq
    simp [heq, h.symm]
  · rename_i hline _
    simp only [reduceCtorEq, false_iff]
    rintro ⟨cs, hcs, _⟩
    exact hline cs hcs

theorem ofLine?_eq_none_iff (line : List Char) :
    ofLine? (line.dropWhile isBlank) = none ↔ OpensNoComment line := by
  constructor
  · intro h
    unfold ofLine? at h
    split at h
    · contradiction
    · contradiction
    · rename_i hline hblock
      refine .inr ⟨?_, ?_⟩
      · rintro ⟨more, hmore⟩
        exact hline more hmore.symm
      · rintro ⟨more, hmore⟩
        exact hblock more hmore.symm
  · rintro (hnil | ⟨hline, hblock⟩)
    · rw [hnil]
      rfl
    · exact ofLine?_eq_none hline hblock

/-- The words for kinds of markings neither start nor end with a blank. -/
theorem word_ends (kind : MarkingKind) :
    kind.word.toList ≠ [] ∧ (∀ c ∈ kind.word.toList.head?, isBlank c = false) ∧
      ∀ c ∈ kind.word.toList.getLast?, isBlank c = false := by
  have hends : kind.word.toList.isEmpty = false ∧
      kind.word.toList.head?.all (fun c => !isBlank c) = true ∧
      kind.word.toList.getLast?.all (fun c => !isBlank c) = true := by
    cases kind <;> decide
  simpa [Option.all_eq_true] using hends

theorem spellsMarking_iff {kind : MarkingKind} (h : kind ≠ unknown) (line : List Char) :
    SpellsMarking kind.word line ↔ ofLine? (line.dropWhile isBlank) = some kind := by
  have hword := kind.word_ends
  rw [ofLine?_eq_some_iff h]
  constructor
  · rintro ⟨before, between, after, hbefore, hbetween, hafter, rfl⟩
    refine ⟨between ++ (kind.word.toList ++ after), ?_, ?_⟩
    · rw [List.dropWhile_append_of_pos hbefore]
      rfl
    · rw [trim_between_blanks hword.1 hword.2.1 hword.2.2 hbetween hafter, String.ofList_toList]
  · rintro ⟨cs, hcs, htrim⟩
    rw [← String.ofList_toList (s := kind.word), trim_eq_iff hword.1 hword.2.1 hword.2.2] at htrim
    obtain ⟨between, after, hbetween, hafter, rfl⟩ := htrim
    refine ⟨line.takeWhile isBlank, between, after, List.all_eq_true.1 List.all_takeWhile, hbetween,
      hafter, ?_⟩
    show line = line.takeWhile isBlank ++ '/' :: '/' :: (between ++ (kind.word.toList ++ after))
    rw [← hcs, List.takeWhile_append_dropWhile]

end MarkingKind

/-! ## Markings of reported directives -/

namespace Directive

/-- The text of the directive holds no line break. -/
def OnOneLine (d : Directive) : Prop :=
  ∀ c ∈ d.text.toList, isBreak c = false

/-- What follows the directive in the source, up to the end of the line. -/
def restOfLine (text : String) (d : Directive) : List Char :=
  lineOf ((dropByteOrderMark text.toList).drop (d.stopIn text))

end Directive

namespace Dissection

variable {text : String} {o : Occurrence}

/-- The trivia behind the directive are those of the source behind its semicolon. -/
theorem exists_behind_eq (D : Dissection text o) :
    ∃ fresh, D.behind = tokensFrom (placeAfter D.place D.whole) fresh (spelled D.behind) := by
  have hsplit : textTokens text =
      (D.before ++ (D.opening ++ (D.named ++ D.gap))) ++ D.phrase.semicolon :: D.behind := by
    simp [D.tokens_eq]
  have hstart : D.phrase.semicolon.start =
      placeAfter .start (D.before ++ (D.opening ++ (D.named ++ D.gap))) := by
    have htiling : Tiling .start (dropByteOrderMark text.toList) (textTokens text) :=
      StartsLineBehind.tiling_textTokens text
    rw [hsplit] at htiling
    exact htiling.start_eq
  obtain ⟨fresh, hbehind⟩ := eq_tokensFrom_of_split hsplit
  have hplace : placeAfter D.place D.whole =
      D.phrase.semicolon.start.advance D.phrase.semicolon.text.toList := by
    rw [hstart, place, ← placeAfter_append, whole]
    simp [placeAfter_append]
  rw [hplace]
  exact ⟨_, hbehind⟩

theorem restOfLine_reported (D : Dissection text o) :
    (reported text o).restOfLine text = lineOf (spelled D.behind) := by
  rw [Directive.restOfLine, D.stopIn_reported, D.source_eq, ← List.drop_drop, List.drop_left,
    List.drop_left]

theorem onOneLine_reported (D : Dissection text o) :
    (reported text o).OnOneLine ↔ (placeAfter D.place D.whole).line = D.place.line := by
  rw [line_placeAfter_eq_iff, Directive.OnOneLine, D.reported_eq, String.toList_ofList]

/-- The trivia behind a directive of several lines stand on another line than its first one. -/
theorem trailing_eq_nil (D : Dissection text o) (h : ¬ (reported text o).OnOneLine) :
    (reported text o).trailing = [] := by
  have hlt : D.place.line < (placeAfter D.place D.whole).line := by
    have hle := line_le_line_placeAfter D.place D.whole
    rw [D.onOneLine_reported] at h
    omega
  rw [D.reported_eq]
  exact trailingOnLine_of_line_lt hlt D.tiling_behind

end Dissection

theorem kind_of_onOneLine {text : String} {d : Directive} (hd : d ∈ scan text)
    (h : d.OnOneLine) : MarkingKind.ofTrivia? d.trailing =
      MarkingKind.ofLine? ((d.restOfLine text).dropWhile isBlank) := by
  obtain ⟨o, D, rfl⟩ := exists_dissection_of_mem_scan hd
  obtain ⟨fresh, hbehind⟩ := D.exists_behind_eq
  rw [D.restOfLine_reported, ← ofTrivia?_trailingOnLine, ← hbehind, D.onOneLine_reported.1 h,
    D.reported_eq]

theorem kind_of_not_onOneLine {text : String} {d : Directive} (hd : d ∈ scan text)
    (h : ¬ d.OnOneLine) : MarkingKind.ofTrivia? d.trailing = none := by
  obtain ⟨o, D, rfl⟩ := exists_dissection_of_mem_scan hd
  rw [D.trailing_eq_nil h]
  rfl

theorem kind_ofTrivia? (trivia : List String) :
    (Marking.ofTrivia? trivia).map Marking.kind = MarkingKind.ofTrivia? trivia := by
  cases h : MarkingKind.ofTrivia? trivia <;> simp [Marking.ofTrivia?, h]

theorem kind_eq_some_iff {text : String} {d : Directive} (hd : d ∈ scan text) {kind : MarkingKind}
    (h : kind ≠ .unknown) : MarkingKind.ofTrivia? d.trailing = some kind ↔
      d.OnOneLine ∧ SpellsMarking kind.word (d.restOfLine text) := by
  by_cases hline : d.OnOneLine
  · rw [kind_of_onOneLine hd hline, MarkingKind.spellsMarking_iff h]
    simp [hline]
  · rw [kind_of_not_onOneLine hd hline]
    simp [hline]

theorem kind_eq_none_iff {text : String} {d : Directive} (hd : d ∈ scan text) :
    MarkingKind.ofTrivia? d.trailing = none ↔
      ¬ d.OnOneLine ∨ OpensNoComment (d.restOfLine text) := by
  by_cases hline : d.OnOneLine
  · rw [kind_of_onOneLine hd hline, MarkingKind.ofLine?_eq_none_iff]
    simp [hline]
  · rw [kind_of_not_onOneLine hd hline]
    simp [hline]

theorem eq_some_unknown_iff (kind : Option MarkingKind) :
    kind = some .unknown ↔ kind ≠ none ∧ kind ≠ some .cantAlias ∧ kind ≠ some .renamed := by
  match kind with
  | none => decide
  | some .unknown => decide
  | some .cantAlias => decide
  | some .renamed => decide

/-- The marking of a directive is what its source shows behind the semicolon on the line. -/
theorem marking_of_restOfLine {text : String} {d : Directive} (hd : d ∈ scan text) :
    ((Marking.ofTrivia? d.trailing).map Marking.kind = some .cantAlias ↔
        d.OnOneLine ∧ SpellsMarking "can't alias" (d.restOfLine text)) ∧
      ((Marking.ofTrivia? d.trailing).map Marking.kind = some .renamed ↔
        d.OnOneLine ∧ SpellsMarking "renamed" (d.restOfLine text)) ∧
      (Marking.ofTrivia? d.trailing = none ↔
        ¬ d.OnOneLine ∨ OpensNoComment (d.restOfLine text)) ∧
      ((Marking.ofTrivia? d.trailing).map Marking.kind = some .unknown ↔
        d.OnOneLine ∧ ¬ OpensNoComment (d.restOfLine text) ∧
          ¬ SpellsMarking "can't alias" (d.restOfLine text) ∧
          ¬ SpellsMarking "renamed" (d.restOfLine text)) := by
  have hcant : MarkingKind.ofTrivia? d.trailing = some .cantAlias ↔ _ :=
    kind_eq_some_iff hd (by decide)
  have hrenamed : MarkingKind.ofTrivia? d.trailing = some .renamed ↔ _ :=
    kind_eq_some_iff hd (by decide)
  have hnone := kind_eq_none_iff hd
  have hkind := kind_ofTrivia? d.trailing
  have habsent : Marking.ofTrivia? d.trailing = none ↔
      MarkingKind.ofTrivia? d.trailing = none := by
    rw [← hkind, Option.map_eq_none_iff]
  rw [hkind]
  refine ⟨hcant, hrenamed, habsent.trans hnone, ?_⟩
  rw [eq_some_unknown_iff, ne_eq, ne_eq, ne_eq, hnone, hcant, hrenamed, not_or, not_not]
  constructor
  · intro h
    exact ⟨h.1.1, h.1.2, fun hspells => h.2.1 ⟨h.1.1, hspells⟩,
      fun hspells => h.2.2 ⟨h.1.1, hspells⟩⟩
  · intro h
    exact ⟨⟨h.1, h.2.1⟩, fun hspells => h.2.2.1 hspells.2, fun hspells => h.2.2.2 hspells.2⟩

/-- Blanks of any script may stand around the word. -/
theorem spellsMarking_between_wide_blanks :
    (⟨"using A = B;", "B", 0, 0, some "A", ["\t", "//\u00a0can't alias \u2003"]⟩ : Directive) ∈
        scan "using A = B;\t//\u00a0can't alias \u2003\r\nusing C = D; // renamed" ∧
      SpellsMarking "can't alias"
        ((⟨"using A = B;", "B", 0, 0, some "A", ["\t", "//\u00a0can't alias \u2003"]⟩ :
          Directive).restOfLine
            "using A = B;\t//\u00a0can't alias \u2003\r\nusing C = D; // renamed") := by
  have hmem : (⟨"using A = B;", "B", 0, 0, some "A", ["\t", "//\u00a0can't alias \u2003"]⟩ :
      Directive) ∈ scan "using A = B;\t//\u00a0can't alias \u2003\r\nusing C = D; // renamed" := by
    decide +kernel
  exact ⟨hmem, ((marking_of_restOfLine hmem).1.1 (by decide +kernel)).2⟩

end UsingStyle
