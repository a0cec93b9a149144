import UsingStyle.Proofs.Directive.PrintedTree

/-! # Printed directives are found again

The meaningful tokens of a printed line derive from the grammar, so the scan takes them as one
directive and goes on with the next line. The directive that it reports has the parts that were
printed.
-/

namespace UsingStyle

open Grammar

/-! ## The directive of a tree -/

theorem exists_items_before {t : Token} (ht : t.isTrivia = false) (us vs : List Token) :
    ∃ items, meaningful (us ++ t :: vs) = items ++ (t, vs) :: meaningful vs ∧
      items.map Prod.fst = withoutTrivia us := by
  unfold withoutTrivia
  induction us with
  | nil => exact ⟨[], by simp [meaningful, ht], rfl⟩
  | cons u us ih =>
      obtain ⟨items, hitems, hfst⟩ := ih
      cases hu : u.isTrivia with
      | true => exact ⟨items, by simp [meaningful, hu, hitems], by simp [hu, hfst]⟩
      | false =>
          exact ⟨(u, us ++ t :: vs) :: items, by simp [meaningful, hu, hitems], by simp [hu, hfst]⟩

/-- The directive that is built for a derivation. -/
theorem ofClause_clause (source : List Char) {p : Phrase} {items more : List (Token × List Token)}
    {behind : List Token} (hitems : items.map Prod.fst = p.front) {a b c : Token}
    (ha : a ∈ p.tokens.head?) (hb : b ∈ p.body.named.head?) (hc : c ∈ p.body.named.getLast?) :
    Directive.ofClause source (items ++ (p.semicolon, behind) :: more) p.clause =
      { text := slice source a.start.offset p.semicolon.stop
        name := slice source b.start.offset c.stop
        line := a.start.line
        column := a.start.column
        aliasName := p.body.aliasName?
        trailing := trailingOnLine a.start.line behind } := by
  have hmap : (items ++ (p.semicolon, behind) :: more).map Prod.fst =
      p.tokens ++ more.map Prod.fst := by
    rw [List.map_append, hitems, p.tokens_eq_front_append]
    simp
  have hname := name_ofClause source hmap hb hc
  have hfirst : ((items ++ (p.semicolon, behind) :: more).getD 0 default).1 = a := by
    apply fst_getD_of_getElem?
    rw [hmap, ← List.head?_eq_getElem?, List.head?_append, ha]
    rfl
  have hlast : (items ++ (p.semicolon, behind) :: more).getD (p.clause.length - 1) default =
      (p.semicolon, behind) := by
    have hlen : p.clause.length - 1 = items.length := by
      have h := congrArg List.length hitems
      rw [List.length_map] at h
      simp [Phrase.clause, p.tokens_eq_front_append, h]
    rw [hlen, List.getD_eq_getElem?_getD, List.getElem?_append_right (Nat.le_refl _)]
    simp
  unfold Directive.ofClause at hname ⊢
  dsimp only at hname ⊢
  rw [hname, hfirst, hlast]
  rfl

/-! ## Places in a printed line -/

theorem start_of_head {a : Piece} (ha : a.kind.isTrivia = false) (p : Position) (ps : List Piece) :
    ∃ t ∈ (withoutTrivia (Piece.tokens p (a :: ps))).head?, t.start = p := by
  refine ⟨⟨a.kind, String.ofList a.text, p⟩, ?_, rfl⟩
  simp [withoutTrivia, Piece.tokens, Token.isTrivia, ha]

theorem stop_of_last {a : Piece} (ha : a.kind.isTrivia = false) (p : Position) (ps : List Piece) :
    ∃ t ∈ (withoutTrivia (Piece.tokens p (ps ++ [a]))).getLast?,
      t.stop = (Piece.stop p (ps ++ [a])).offset := by
  refine ⟨⟨a.kind, String.ofList a.text, Piece.stop p ps⟩, ?_, ?_⟩
  · simp [withoutTrivia, Piece.tokens_append, Piece.tokens, Token.isTrivia, ha]
  · rw [Piece.stop_append, Piece.stop_cons, Piece.stop_nil, Position.offset_advance]
    simp [Token.stop]

theorem QualifiedName.pieces_eq_append_last (n : QualifiedName) :
    ∃ ps a, n.pieces = ps ++ [a] ∧ a.kind.isTrivia = false := by
  cases n with
  | word w => exact ⟨[], w.piece, by simp [pieces], rfl⟩
  | member qualifier separator w =>
      exact ⟨qualifier.pieces ++ [separator.piece], w.piece, by simp [pieces], rfl⟩
  | generic base spaced arguments =>
      refine
        ⟨base.pieces ++ .symbol ['<'] :: argumentPieces arguments spaced, .symbol ['>'], ?_, rfl⟩
      simp [pieces]

theorem Line.front_eq_cons (l : Line) :
    ∃ (w : Identifier) (ps : List Piece), l.front = w.piece :: ps := by
  unfold Line.front
  cases l.isGlobal with
  | false => exact ⟨usingIdentifier, _, rfl⟩
  | true => exact ⟨globalIdentifier, _, rfl⟩

theorem slice_append (before w after : List Char) :
    slice (before ++ (w ++ after)) before.length (before.length + w.length) = String.ofList w := by
  rw [slice, List.drop_left, Nat.add_sub_cancel_left, List.take_left]

/-! ## One printed line -/

def Line.semicolon (l : Line) (p : Position) : Token :=
  ⟨.punctuation, ";", Piece.stop p (l.front ++ l.name.pieces)⟩

theorem Line.stop_semicolon (l : Line) (p : Position) :
    (l.semicolon p).stop = p.offset + l.phrase.toList.length := by
  have hstart : (l.semicolon p).start.offset =
      p.offset + (Piece.chars (l.front ++ l.name.pieces)).length := Piece.offset_stop p _
  have hlength : (l.semicolon p).text.length = 1 := show String.length ";" = 1 by decide
  rw [Token.stop, hstart, hlength, ← l.chars_phrase, ← List.append_assoc, ← Piece.chars_append,
    List.length_append]
  exact Nat.add_assoc _ _ _

theorem Line.slice_phrase (l : Line) (number : Nat) (before after : List Char) :
    slice (before ++ (l.print.toList ++ after)) before.length
      (l.semicolon ⟨number, 0, before.length⟩).stop = l.phrase := by
  have hprint : ∃ rest, l.print.toList ++ after = l.phrase.toList ++ rest := by
    rw [print, String.append_assoc, String.toList_append, List.append_assoc]
    exact ⟨_, rfl⟩
  obtain ⟨rest, hrest⟩ := hprint
  rw [hrest, stop_semicolon, slice_append, String.ofList_toList]

theorem Line.slice_name (l : Line) (number : Nat) (before after : List Char) :
    slice (before ++ (l.print.toList ++ after))
      (Piece.stop ⟨number, 0, before.length⟩ l.front).offset
      (l.semicolon ⟨number, 0, before.length⟩).start.offset = l.name.text := by
  have hprint : ∃ rest, before ++ (l.print.toList ++ after) =
      (before ++ Piece.chars l.front) ++ (Piece.chars l.name.pieces ++ rest) := by
    rw [← l.chars_content, content, Piece.chars_append, Piece.chars_append]
    simp only [List.append_assoc]
    exact ⟨_, rfl⟩
  obtain ⟨rest, hrest⟩ := hprint
  have hstart : (Piece.stop ⟨number, 0, before.length⟩ l.front).offset =
      (before ++ Piece.chars l.front).length := by
    rw [Piece.offset_stop, List.length_append]
  have hstop : (l.semicolon ⟨number, 0, before.length⟩).start.offset =
      (before ++ Piece.chars l.front).length + (Piece.chars l.name.pieces).length := by
    rw [semicolon, Piece.stop_append, Piece.offset_stop, hstart]
  rw [hrest, hstart, hstop, slice_append, l.name.chars_pieces, String.ofList_toList]

/-- The tree has the tokens of the line that is printed at `p`. -/
structure Line.HasTree (l : Line) (p : Position) (t : Phrase) : Prop where
  wellFormed : t.WellFormed
  front_eq : t.front = withoutTrivia (Piece.tokens p (l.front ++ l.name.pieces))
  semicolon_eq : t.semicolon = l.semicolon p
  named_eq : t.body.named = withoutTrivia (Piece.tokens (Piece.stop p l.front) l.name.pieces)
  aliasName_eq : t.body.aliasName? = l.aliasName.map Identifier.text

theorem Line.exists_hasTree (l : Line) (p : Position) : ∃ t, l.HasTree p t := by
  have hfront := map_look_tokens p l.front
  have hname := map_look_tokens (Piece.stop p l.front) l.name.pieces
  have hsemi : (l.semicolon p).text = ";" := rfl
  obtain ⟨t, ht, htfront, htsemi, htname, htalias⟩ := l.exists_phrase hfront hname hsemi
  refine ⟨t, ht, ?_, htsemi, htname, htalias⟩
  rw [htfront, Piece.tokens_append, withoutTrivia, withoutTrivia, ← List.filter_append]
  rfl

namespace Line.HasTree

variable {l : Line} {p : Position} {t : Phrase}

theorem start_first (h : l.HasTree p t) : ∃ a ∈ t.tokens.head?, a.start = p := by
  obtain ⟨w, ps, hps⟩ := l.front_eq_cons
  have hhead := start_of_head (a := w.piece) rfl p (ps ++ l.name.pieces)
  rw [← List.cons_append, ← hps, ← h.front_eq] at hhead
  obtain ⟨a, ha, hstart⟩ := hhead
  refine ⟨a, ?_, hstart⟩
  rw [t.tokens_eq_front_append, List.head?_append, ha]
  rfl

theorem start_name (h : l.HasTree p t) :
    ∃ a ∈ t.body.named.head?, a.start = Piece.stop p l.front := by
  obtain ⟨ps, hps⟩ := l.name.pieces_eq_cons
  rw [h.named_eq, hps]
  exact start_of_head rfl _ ps

theorem stop_name (h : l.HasTree p t) :
    ∃ a ∈ t.body.named.getLast?, a.stop = (l.semicolon p).start.offset := by
  obtain ⟨ps, a, hps, ha⟩ := l.name.pieces_eq_append_last
  have hlast := stop_of_last ha (Piece.stop p l.front) ps
  rw [← hps, ← Piece.stop_append] at hlast
  rw [h.named_eq]
  exact hlast

/-- The directive that is built for a printed line has the parts that were printed. -/
theorem ofClause_eq {number : Nat} {before : List Char} (h : l.HasTree ⟨number, 0, before.length⟩ t)
    (after : List Char) {items more : List (Token × List Token)} {behind : List Token}
    (hitems : items.map Prod.fst = t.front)
    (hbehind : trailingOnLine number behind = (l.directive number).trailing) :
    Directive.ofClause (before ++ (l.print.toList ++ after))
      (items ++ (t.semicolon, behind) :: more) t.clause = l.directive number := by
  obtain ⟨a, ha, hstart⟩ := h.start_first
  obtain ⟨b, hb, hnameStart⟩ := h.start_name
  obtain ⟨c, hc, hnameStop⟩ := h.stop_name
  have htext := l.slice_phrase number before after
  have hname := l.slice_name number before after
  rw [ofClause_clause _ hitems ha hb hc, hstart, hnameStart, hnameStop, h.semicolon_eq,
    h.aliasName_eq, htext, hname, hbehind]
  rfl

end Line.HasTree

/-- What stands behind the semicolon of the line that is printed at `p`. -/
def Line.behind (l : Line) (p : Position) (more : List Token) : List Token :=
  Piece.tokens ((l.semicolon p).start.advance [';']) l.trail ++
    ⟨.newline, "\n", Piece.stop p l.content⟩ :: more

theorem Line.tokens_content_append (l : Line) (p : Position) (more : List Token) :
    Piece.tokens p l.content ++ ⟨.newline, "\n", Piece.stop p l.content⟩ :: more =
      Piece.tokens p (l.front ++ l.name.pieces) ++ l.semicolon p :: l.behind p more := by
  have hcontent : Piece.tokens p l.content = Piece.tokens p (l.front ++ l.name.pieces) ++
      l.semicolon p :: Piece.tokens ((l.semicolon p).start.advance [';']) l.trail := by
    rw [content, ← List.append_assoc, Piece.tokens_append]
    rfl
  rw [hcontent, List.append_assoc]
  rfl

theorem Line.meaningful_behind (l : Line) (p : Position) (more : List Token) :
    meaningful (l.behind p more) = meaningful more := by
  unfold Line.behind Line.trail
  cases l.comment with
  | none => rfl
  | some body => rfl

theorem Line.trailingOnLine_behind (l : Line) (p : Position) (more : List Token) :
    trailingOnLine p.line (l.behind p more) =
      l.comment.elim [] fun body => ["  ", "//" ++ body] := by
  have hline : (l.semicolon p).start.line = p.line := by
    have hinline := Piece.inline_append l.inline_front l.name.inline
    rw [semicolon, Piece.stop_of_inline hinline]
  unfold Line.behind Line.trail
  generalize Piece.stop p l.content = place
  cases l.comment with
  | none => rfl
  | some body =>
      have hcomment : String.ofList ('/' :: '/' :: body.toList) = "//" ++ body := by
        rw [← String.toList_inj]
        simp
      have hblank : ((l.semicolon p).start.advance [';']).line = p.line := hline
      have hbody : (((l.semicolon p).start.advance [';']).advance [' ', ' ']).line = p.line := hline
      simp [trailingOnLine, Piece.tokens, TokenKind.isTrailing, Piece.blank, Piece.comment,
        hcomment, hblank, hbody]

/-- The scan takes a printed line as one directive and goes on with what follows the line. -/
theorem Line.exists_clause_of_print (l : Line) (number : Nat) (before after : List Char)
    {items : List (Token × List Token)}
    (hitems : items =
      meaningful (tokensFrom ⟨number, 0, before.length⟩ true (l.print.toList ++ after))) :
    ∃ c, directiveAt? .top (items.map Prod.fst) = some c ∧
      items.drop c.length = meaningful
        (tokensFrom ⟨number + 1, 0, (before ++ l.print.toList).length⟩ true after) ∧
      Directive.ofClause (before ++ (l.print.toList ++ after)) items c = l.directive number := by
  rw [l.tokensFrom_print, l.tokens_content_append, ← List.length_append] at hitems
  generalize tokensFrom _ true after = more at hitems ⊢
  obtain ⟨t, ht⟩ := l.exists_hasTree ⟨number, 0, before.length⟩
  obtain ⟨front, hmeaningful, hfront⟩ := exists_items_before
    (t := l.semicolon ⟨number, 0, before.length⟩) rfl
    (Piece.tokens ⟨number, 0, before.length⟩ (l.front ++ l.name.pieces))
    (l.behind ⟨number, 0, before.length⟩ more)
  rw [← ht.front_eq] at hfront
  rw [hmeaningful, l.meaningful_behind, ← ht.semicolon_eq] at hitems
  have htokens : items.map Prod.fst = t.tokens ++ (meaningful more).map Prod.fst := by
    rw [hitems, t.tokens_eq_front_append, List.map_append, hfront]
    simp
  have hlength : t.clause.length = front.length + 1 := by
    rw [Phrase.clause, t.tokens_eq_front_append, ← hfront]
    simp
  refine ⟨t.clause, ?_, ?_, ?_⟩
  · rw [htokens, directiveAt?_eq_some_iff]
    refine ⟨rfl, ?_, ?_⟩
    · exact Phrase.startsDirective_tokens_append ht.wellFormed _
    · exact Phrase.parse?_tokens_append ht.wellFormed _
  · rw [hitems, hlength]
    simp
  · rw [hitems]
    exact ht.ofClause_eq after hfront (l.trailingOnLine_behind ⟨number, 0, before.length⟩ more)

/-! ## All printed lines -/

theorem printLines_cons (l : Line) (ls : List Line) :
    (printLines (l :: ls)).toList = l.print.toList ++ (printLines ls).toList := by
  rw [printLines, List.map_cons, String.join_cons, String.toList_append]
  rfl

/-- From a printed line on, the scan finds the lines that are left. -/
theorem map_ofClause_occurrencesFrom (ls : List Line) (number : Nat) (before : List Char)
    {items : List (Token × List Token)} {index : Nat}
    (hitems : items.drop index =
      meaningful (tokensFrom ⟨number, 0, before.length⟩ true (printLines ls).toList)) :
    ((occurrencesFrom .top index ((items.drop index).map Prod.fst)).map fun o =>
        Directive.ofClause (before ++ (printLines ls).toList) (items.drop o.index) o.clause) =
      ls.mapIdx fun i l => l.directive (number + i) := by
  -- the items stay those of the whole text, for the scan counts its indices from the start
  induction ls generalizing number before index with
  | nil =>
      rw [hitems]
      simp [printLines, tokensFrom, meaningful, occurrencesFrom]
  | cons l ls ih =>
      rw [printLines_cons] at hitems ⊢
      obtain ⟨c, hc, hdrop, hdirective⟩ := l.exists_clause_of_print number before _ hitems
      rw [List.drop_drop] at hdrop
      have hrest := ih (number + 1) (before ++ l.print.toList) hdrop
      rw [occurrencesFrom_of_some hc, List.map_cons, hdirective, ← List.map_drop, List.drop_drop,
        List.mapIdx_cons]
      simp only [List.append_assoc] at hrest
      simp only [hrest, Nat.add_assoc, Nat.add_comm 1, Nat.add_zero]

/-- A printed text starts with a word, and no word starts with a byte-order mark. -/
theorem dropByteOrderMark_printLines (ls : List Line) :
    Text.dropByteOrderMark (printLines ls).toList = (printLines ls).toList := by
  cases ls with
  | nil => simp [printLines, Text.dropByteOrderMark]
  | cons l ls =>
      obtain ⟨w, ps, hfront⟩ := l.front_eq_cons
      obtain ⟨c, cs, htext, hc⟩ := w.first
      have hmark : c ≠ '\uFEFF' := by
        have hword : Text.isWordStart '\uFEFF' = false := by decide +kernel
        rcases hc with rfl | hc
        · decide
        · exact ne_of_isWordStart hc hword
      have hprint : ∃ rest, (printLines (l :: ls)).toList = c :: rest := by
        rw [printLines_cons, ← l.chars_content, Line.content, hfront]
        simp only [List.cons_append, Piece.chars_cons, Identifier.piece, Piece.word, htext]
        exact ⟨_, rfl⟩
      obtain ⟨rest, hrest⟩ := hprint
      rw [hrest]
      unfold Text.dropByteOrderMark
      split
      · rename_i heq
        exact absurd (List.cons.inj heq).1 hmark
      · rfl

/-- Directives that are printed line by line are found again, in order and with all their parts. -/
theorem scan_printLines (ls : List Line) :
    scan (printLines ls) = ls.mapIdx fun i l => l.directive i := by
  have hitems : (meaningful (tokensFrom .start true (printLines ls).toList)).drop 0 =
      meaningful (tokensFrom ⟨0, 0, 0⟩ true (printLines ls).toList) := rfl
  have hrun := map_ofClause_occurrencesFrom ls 0 [] hitems
  simp only [Nat.zero_add] at hrun
  unfold scan occurrences
  dsimp only
  rw [dropByteOrderMark_printLines]
  exact hrun

-- a line with every part: `static` is the modifier and the alias, and the comment has a brace
example :
    let base := QualifiedName.member (.word ⟨"global", by decide⟩) .colons ⟨"@using", by decide⟩
    let argument := QualifiedName.generic (.word ⟨"B", by decide⟩) false []
    let name := QualifiedName.generic base true [.word ⟨"A", by decide⟩, argument]
    printLines [⟨true, true, some ⟨"static", by decide⟩, name, some " \x7b;", by decide,
      by simp [Text.isBreak]⟩] =
      "global using static static = global::@using<A, B<>>;  // \x7b;\n" := by
  decide

end UsingStyle
