import UsingStyle.Proofs.Directive.RoundTrip
import UsingStyle.Proofs.Directive.Spans
import UsingStyle.Proofs.Token.Spelling

/-! # Directives with their trivia

The tokens of a source, trivia included, are cut at a directive: those before it, those up to its
name, those of the name, the trivia between the name and the semicolon, and those behind. What the
scan reports of the directive is what these rows spell and where they stand.
-/

namespace UsingStyle

open Grammar

theorem withoutTrivia_append (ts us : List Token) :
    withoutTrivia (ts ++ us) = withoutTrivia ts ++ withoutTrivia us :=
  List.filter_append ts us

/-- A meaningful token cuts the tokens as it cuts the meaningful ones. -/
theorem exists_split_of_withoutTrivia {ts as bs : List Token} {t : Token}
    (h : withoutTrivia ts = as ++ t :: bs) :
    ∃ us vs, ts = us ++ t :: vs ∧ t.isTrivia = false ∧ withoutTrivia us = as ∧
      withoutTrivia vs = bs := by
  obtain ⟨us, vs, rfl, hus, hvs⟩ := List.filter_eq_append_iff.1 h
  obtain ⟨trivia, ws, rfl, htrivia, ht, hws⟩ := List.filter_eq_cons_iff.1 hvs
  have hnone : withoutTrivia trivia = [] := List.filter_eq_nil_iff.2 htrivia
  refine ⟨us ++ trivia, ws, by simp, by simpa using ht, ?_, hws⟩
  rw [withoutTrivia_append, hnone, List.append_nil]
  exact hus

/-- The first of two rows can be cut off right behind its last meaningful token. -/
theorem exists_row_of_withoutTrivia {ts as bs : List Token} (h : withoutTrivia ts = as ++ bs) :
    ∃ us vs, ts = us ++ vs ∧ withoutTrivia us = as ∧ withoutTrivia vs = bs ∧
      us.getLast? = as.getLast? := by
  rcases List.eq_nil_or_concat' as with rfl | ⟨init, last, rfl⟩
  · exact ⟨[], ts, rfl, rfl, h, rfl⟩
  · rw [List.append_assoc, List.singleton_append] at h
    obtain ⟨us, vs, rfl, hlast, hus, hvs⟩ := exists_split_of_withoutTrivia h
    refine ⟨us ++ [last], vs, by simp, ?_, hvs, by simp⟩
    rw [withoutTrivia_append, hus]
    simp [withoutTrivia, hlast]

theorem withoutTrivia_cons {t : Token} (h : t.isTrivia = false) (ts : List Token) :
    withoutTrivia (t :: ts) = t :: withoutTrivia ts := by
  simp [withoutTrivia, h]

theorem isTrivia_of_mem_withoutTrivia {ts : List Token} {t : Token} (h : t ∈ withoutTrivia ts) :
    t.isTrivia = false := by
  simpa using (List.mem_filter.1 h).2

theorem isTrivia_of_withoutTrivia_eq_nil {ts : List Token} (h : withoutTrivia ts = []) :
    ∀ t ∈ ts, t.isTrivia = true := by
  intro t ht
  simpa using List.filter_eq_nil_iff.1 h t ht

/-! ## The tokens in front of a name -/

def Grammar.Body.opening : Body → List Token
  | .target aliasName equals _ _ => [aliasName, equals]
  | .name _ _ => []

theorem Grammar.Body.tokens_eq_opening_append (b : Body) : b.tokens = b.opening ++ b.named := by
  cases b <;> rfl

theorem Grammar.Body.exists_named_eq_cons (b : Body) : ∃ first more, b.named = first :: more := by
  cases b <;> exact ⟨_, _, rfl⟩

namespace Grammar.Phrase

/-- The tokens of a directive up to its name. -/
def opening (p : Phrase) : List Token :=
  p.globalWord.toList ++ p.usingWord :: (p.staticWord.toList ++ p.body.opening)

theorem front_eq_opening_append (p : Phrase) : p.front = p.opening ++ p.body.named := by
  simp [front, opening, p.body.tokens_eq_opening_append]

theorem exists_opening_eq_cons (p : Phrase) : ∃ first more, p.opening = first :: more := by
  unfold opening
  cases p.globalWord <;> exact ⟨_, _, rfl⟩

end Grammar.Phrase

/-! ## Dissections -/

/-- The tokens of a source text, cut at an occurrence of a directive. -/
structure Dissection (text : String) (o : Occurrence) where
  phrase : Phrase
  before : List Token
  opening : List Token
  named : List Token
  gap : List Token
  behind : List Token
  wellFormed : phrase.WellFormed
  tokens_eq : textTokens text =
    before ++ (opening ++ (named ++ (gap ++ phrase.semicolon :: behind)))
  index_eq : (withoutTrivia before).length = o.index
  opening_eq : withoutTrivia opening = phrase.opening
  named_eq : withoutTrivia named = phrase.body.named
  gap_trivia : ∀ t ∈ gap, t.isTrivia = true
  semicolon_eq : phrase.semicolon.isTrivia = false
  head_opening : opening.head? = phrase.opening.head?
  head_named : named.head? = phrase.body.named.head?
  last_named : named.getLast? = phrase.body.named.getLast?
  clause_eq : o.clause = phrase.clause

theorem exists_dissection {text : String} {o : Occurrence}
    (h : o ∈ occurrences (sourceTokens text)) : Nonempty (Dissection text o) := by
  obtain ⟨p, rest, hp, hdrop, hclause⟩ := exists_phrase_of_mem h
  obtain ⟨first, more, hopening⟩ := p.exists_opening_eq_cons
  obtain ⟨nameFirst, moreNamed, hnamed⟩ := p.body.exists_named_eq_cons
  have hall : withoutTrivia (textTokens text) = (sourceTokens text).take o.index ++
      first :: (more ++ nameFirst :: (moreNamed ++ p.semicolon :: rest)) := by
    have hcut : withoutTrivia (textTokens text) =
        (sourceTokens text).take o.index ++ (sourceTokens text).drop o.index :=
      (List.take_append_drop o.index (sourceTokens text)).symm
    rw [hcut, hdrop, p.tokens_eq_front_append, p.front_eq_opening_append, hopening, hnamed]
    simp
  obtain ⟨before, afterFirst, htokens, hfirst, hbefore, hafter⟩ :=
    exists_split_of_withoutTrivia hall
  obtain ⟨moreOpening, afterName, rfl, hnameFirst, hmore, hname⟩ :=
    exists_split_of_withoutTrivia hafter
  obtain ⟨row, afterRow, rfl, hrow, hrest, hlast⟩ := exists_row_of_withoutTrivia hname
  obtain ⟨gap, behind, rfl, hsemicolon, hgap, _⟩ :=
    exists_split_of_withoutTrivia (hrest.trans (List.nil_append _).symm)
  have hstop := (bounds_of_mem_occurrences h).1
  rw [Occurrence.stop] at hstop
  exact
    ⟨{  phrase := p
        before := before
        opening := first :: moreOpening
        named := nameFirst :: row
        gap := gap
        behind := behind
        wellFormed := hp
        tokens_eq := by simp [htokens]
        index_eq := by rw [hbefore, List.length_take, Nat.min_eq_left (by omega)]
        opening_eq := by rw [withoutTrivia_cons hfirst, hmore, hopening]
        named_eq := by rw [withoutTrivia_cons hnameFirst, hrow, hnamed]
        gap_trivia := isTrivia_of_withoutTrivia_eq_nil hgap
        semicolon_eq := hsemicolon
        head_opening := by rw [hopening]; rfl
        head_named := by rw [hnamed]; rfl
        last_named := by rw [hnamed, List.getLast?_cons, List.getLast?_cons, hlast]
        clause_eq := hclause }⟩

theorem exists_dissection_of_mem_scan {text : String} {d : Directive} (h : d ∈ scan text) :
    ∃ (o : Occurrence) (_ : Dissection text o), reported text o = d := by
  rw [scan_eq_map_reported] at h
  obtain ⟨o, ho, hd⟩ := List.mem_map.1 h
  obtain ⟨D⟩ := exists_dissection ho
  exact ⟨o, D, hd⟩

namespace Dissection

variable {text : String} {o : Occurrence}

/-- All tokens of the directive. -/
def whole (D : Dissection text o) : List Token :=
  D.opening ++ (D.named ++ (D.gap ++ [D.phrase.semicolon]))

/-- Where the directive starts. -/
def place (D : Dissection text o) : Position :=
  placeAfter .start D.before

theorem textTokens_eq (D : Dissection text o) :
    textTokens text = D.before ++ (D.whole ++ D.behind) := by
  rw [D.tokens_eq]
  simp [whole]

theorem tiling (D : Dissection text o) :
    Tiling .start (Text.dropByteOrderMark text.toList) (D.before ++ (D.whole ++ D.behind)) := by
  rw [← D.textTokens_eq]
  exact StartsLineBehind.tiling_textTokens text

theorem tiling_whole (D : Dissection text o) : Tiling D.place (spelled D.whole) D.whole :=
  D.tiling.append_right.append_left

theorem tiling_behind (D : Dissection text o) :
    Tiling (placeAfter D.place D.whole) (spelled D.behind) D.behind :=
  D.tiling.append_right.append_right

theorem tiling_named (D : Dissection text o) :
    Tiling .start (Text.dropByteOrderMark text.toList)
      ((D.before ++ D.opening) ++ (D.named ++ (D.gap ++ D.phrase.semicolon :: D.behind))) := by
  rw [List.append_assoc, ← D.tokens_eq]
  exact StartsLineBehind.tiling_textTokens text

theorem source_eq (D : Dissection text o) :
    Text.dropByteOrderMark text.toList =
      spelled D.before ++ (spelled D.whole ++ spelled D.behind) := by
  rw [← D.tiling.spelled_eq, spelled_append, spelled_append]

theorem offset_place (D : Dissection text o) : D.place.offset = (spelled D.before).length := by
  rw [place, D.tiling.append_left.offset_placeAfter]
  exact Nat.zero_add _

theorem exists_whole_eq_cons (D : Dissection text o) :
    ∃ first more, D.whole = first :: more ∧ first ∈ D.phrase.tokens.head? := by
  obtain ⟨first, more, hopening⟩ := D.phrase.exists_opening_eq_cons
  have hhead := D.head_opening
  rw [hopening] at hhead
  obtain ⟨rest, hrest⟩ := List.head?_eq_some_iff.1 hhead
  refine ⟨first, _, by rw [whole, hrest]; rfl, ?_⟩
  rw [D.phrase.tokens_eq_front_append, D.phrase.front_eq_opening_append, hopening]
  rfl

theorem start_first (D : Dissection text o) {first : Token} {more : List Token}
    (h : D.whole = first :: more) : first.start = D.place := by
  have htiling := D.tiling
  rw [h] at htiling
  exact htiling.start_eq

/-- A row of tokens spells the source from where its first token starts to where its last one
ends. -/
theorem slice_row {source : List Char} {us ws vs : List Token}
    (h : Tiling .start source (us ++ (ws ++ vs))) {first last : Token} (hfirst : first ∈ ws.head?)
    (hlast : last ∈ ws.getLast?) :
    slice source first.start.offset last.stop = String.ofList (spelled ws) := by
  rw [h.offset_row hfirst, h.stop_row hlast, ← h.spelled_eq, spelled_append, spelled_append,
    slice_append]

theorem withoutTrivia_gap (D : Dissection text o) : withoutTrivia D.gap = [] := by
  refine List.filter_eq_nil_iff.2 fun t ht => ?_
  rw [D.gap_trivia t ht]
  exact Bool.false_ne_true

theorem front_eq (D : Dissection text o) :
    withoutTrivia (D.opening ++ (D.named ++ D.gap)) = D.phrase.front := by
  rw [withoutTrivia_append, withoutTrivia_append, D.opening_eq, D.named_eq, D.withoutTrivia_gap,
    List.append_nil, D.phrase.front_eq_opening_append]

theorem exists_items (D : Dissection text o) :
    ∃ items more, (meaningful (textTokens text)).drop o.index =
      items ++ (D.phrase.semicolon, D.behind) :: more ∧ items.map Prod.fst = D.phrase.front := by
  obtain ⟨items, hitems, hfront⟩ := exists_items_before D.semicolon_eq
    (D.opening ++ (D.named ++ D.gap)) D.behind
  refine ⟨items, meaningful D.behind, ?_, by rw [hfront, D.front_eq]⟩
  have hlength : o.index = ((meaningful D.before).map Prod.fst).length := by
    rw [map_fst_meaningful]
    exact D.index_eq.symm
  rw [← hitems, D.tokens_eq, meaningful_append, hlength, List.length_map, List.drop_left']
  · simp
  · simp

/-- What is reported of the directive. -/
theorem reported_eq (D : Dissection text o) :
    reported text o =
      { text := String.ofList (spelled D.whole)
        name := String.ofList (spelled D.named)
        line := D.place.line
        column := D.place.column
        aliasName := D.phrase.body.aliasName?
        trailing := trailingOnLine D.place.line D.behind } := by
  obtain ⟨items, more, hdrop, hitems⟩ := D.exists_items
  obtain ⟨first, rest, hwhole, hfirst⟩ := D.exists_whole_eq_cons
  obtain ⟨nameFirst, moreNamed, hnamed⟩ := D.phrase.body.exists_named_eq_cons
  have hnameFirst : nameFirst ∈ D.phrase.body.named.head? := by rw [hnamed]; rfl
  obtain ⟨nameLast, hnameLast⟩ : ∃ t, t ∈ D.phrase.body.named.getLast? := by
    rw [hnamed]
    exact ⟨_, List.getLast?_eq_some_getLast (List.cons_ne_nil _ _)⟩
  have htext : slice (Text.dropByteOrderMark text.toList) first.start.offset
      D.phrase.semicolon.stop = String.ofList (spelled D.whole) := by
    refine slice_row D.tiling ?_ ?_
    · rw [hwhole]
      rfl
    · simp [whole]
  have hname : slice (Text.dropByteOrderMark text.toList) nameFirst.start.offset nameLast.stop =
      String.ofList (spelled D.named) := by
    refine slice_row D.tiling_named ?_ ?_
    · rw [D.head_named]
      exact hnameFirst
    · rw [D.last_named]
      exact hnameLast
  have hclause : Directive.ofClause (Text.dropByteOrderMark text.toList)
      (items ++ (D.phrase.semicolon, D.behind) :: more) D.phrase.clause = _ :=
    ofClause_clause _ hitems hfirst hnameFirst hnameLast
  rw [← hdrop, ← D.clause_eq, htext, hname, D.start_first hwhole] at hclause
  exact hclause

end Dissection

end UsingStyle
