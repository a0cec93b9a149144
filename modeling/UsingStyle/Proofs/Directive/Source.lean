import UsingStyle.Directive.Scan
import UsingStyle.Proofs.Directive.Visit
import UsingStyle.Proofs.Token.Kinds
import UsingStyle.Proofs.Token.Tiling

/-! # The meaningful tokens of a source

`scan` looks for directives among the tokens of a source that are no trivia, and reports each at the
place of its first token. Two facts about these tokens carry over from the text: their places are
strictly increasing, and an identifier is never a brace or a semicolon.
-/

namespace UsingStyle

/-- The tokens of a source text that are no trivia. -/
def sourceTokens (text : String) : List Token :=
  (tokensFrom .start true (Text.dropByteOrderMark text.toList)).filter fun t => !t.isTrivia

/-- Whether the directive is reported at the place of the token. -/
def Directive.startsAt (d : Directive) (t : Token) : Bool :=
  d.line == t.start.line && d.column == t.start.column

theorem map_fst_meaningful (ts : List Token) :
    (meaningful ts).map Prod.fst = ts.filter fun t => !t.isTrivia := by
  induction ts with
  | nil => rfl
  | cons t ts ih => cases h : t.isTrivia <;> simp [meaningful, h, ih]

theorem pairwise_sourceTokens (text : String) :
    (sourceTokens text).Pairwise (fun a b => a.start.Before b.start) :=
  (tiling_tokensFrom _ _ _).pairwise_before.filter _

theorem wordsBreakNothing_sourceTokens (text : String) :
    WordsBreakNothing (sourceTokens text) := by
  intro t ht hkind
  obtain ⟨c, word, htext, hc⟩ := first_of_identifier (List.mem_filter.1 ht).1 hkind
  have hne : ∀ b : Char, b ≠ '@' → Text.isWordStart b = false → t.text ≠ String.ofList [b] := by
    intro b hb hword heq
    rw [heq, String.toList_ofList] at htext
    cases htext
    rcases hc with rfl | hc
    · exact hb rfl
    · rw [hword] at hc
      contradiction
  have hopen := hne '\x7b' (by decide) (by decide)
  have hclose := hne '\x7d' (by decide) (by decide)
  have hsemi := hne ';' (by decide) (by decide)
  simp only [Clause.breaksScope, Bool.or_eq_false_iff, beq_eq_false_iff_ne]
  exact ⟨⟨hopen, hclose⟩, hsemi⟩

/-! ## Reported directives -/

/-- The directive that is reported for an occurrence. -/
def reported (text : String) (o : Occurrence) : Directive :=
  let source := Text.dropByteOrderMark text.toList
  Directive.ofClause source ((meaningful (tokensFrom .start true source)).drop o.index) o.clause

theorem scan_eq_map_reported (text : String) :
    scan text = (occurrences (sourceTokens text)).map (reported text) := by
  unfold scan
  dsimp only
  rw [map_fst_meaningful]
  rfl

theorem exists_first_token {ts : List Token} {o : Occurrence} (h : o ∈ occurrences ts) :
    ∃ t, ts[o.index]? = some t := by
  obtain ⟨s, _, hc⟩ := exists_visits_of_mem h
  cases ht : ts[o.index]? with
  | some t => exact ⟨t, rfl⟩
  | none =>
      rw [List.drop_eq_nil_of_le (List.getElem?_eq_none_iff.1 ht), directiveAt?_nil] at hc
      contradiction

theorem startsAt_reported {text : String} {o : Occurrence} {t : Token}
    (ht : (sourceTokens text)[o.index]? = some t) : (reported text o).startsAt t = true := by
  have hfirst : (((meaningful (tokensFrom .start true
      (Text.dropByteOrderMark text.toList))).drop o.index).getD 0 default).1 = t := by
    unfold sourceTokens at ht
    rw [← map_fst_meaningful, List.getElem?_map] at ht
    obtain ⟨item, hitem, rfl⟩ := Option.map_eq_some_iff.1 ht
    simp [hitem]
  simp only [reported, Directive.ofClause, Directive.startsAt, hfirst, BEq.rfl, Bool.and_self]

theorem startsAt_iff {d : Directive} {t : Token} :
    d.startsAt t = true ↔ d.line = t.start.line ∧ d.column = t.start.column := by
  simp [Directive.startsAt]

/-! ## Places of the directives -/

/-- On an earlier line, or further left on the same line. -/
def Directive.Precedes (a b : Directive) : Prop :=
  a.line < b.line ∨ a.line = b.line ∧ a.column < b.column

theorem Directive.Precedes.of_startsAt {a b : Directive} {t u : Token}
    (ha : a.startsAt t = true) (hb : b.startsAt u = true) (h : t.start.Before u.start) :
    a.Precedes b := by
  rw [startsAt_iff] at ha hb
  unfold Position.Before at h
  unfold Directive.Precedes
  omega

theorem before_of_index_lt {text : String} {i j : Nat} {t u : Token}
    (ht : (sourceTokens text)[i]? = some t) (hu : (sourceTokens text)[j]? = some u) (hij : i < j) :
    t.start.Before u.start := by
  obtain ⟨hi, rfl⟩ := List.getElem?_eq_some_iff.1 ht
  obtain ⟨hj, rfl⟩ := List.getElem?_eq_some_iff.1 hu
  exact List.pairwise_iff_getElem.1 (pairwise_sourceTokens text) i j hi hj hij

theorem index_lt_stop {ts : List Token} {o : Occurrence} (h : o ∈ occurrences ts) :
    o.index < o.stop := by
  obtain ⟨s, _, hc⟩ := exists_visits_of_mem h
  have hpos := length_pos_of_directiveAt? hc
  unfold Occurrence.stop
  omega

theorem pairwise_index_lt (ts : List Token) :
    (occurrences ts).Pairwise (fun o o' => o.index < o'.index) :=
  (pairwise_occurrences ts).imp_of_mem fun ho _ h => Nat.lt_of_lt_of_le (index_lt_stop ho) h

theorem pairwise_scan (text : String) : (scan text).Pairwise Directive.Precedes := by
  rw [scan_eq_map_reported, List.pairwise_map]
  refine (pairwise_index_lt _).imp_of_mem fun {o o'} ho ho' hlt => ?_
  obtain ⟨t, ht⟩ := exists_first_token ho
  obtain ⟨u, hu⟩ := exists_first_token ho'
  exact .of_startsAt (startsAt_reported ht) (startsAt_reported hu) (before_of_index_lt ht hu hlt)

theorem zero_le_of_mem_scan {text : String} {d : Directive} (h : d ∈ scan text) :
    0 ≤ d.line ∧ 0 ≤ d.column := by
  rw [scan_eq_map_reported] at h
  obtain ⟨o, ho, rfl⟩ := List.mem_map.1 h
  obtain ⟨t, ht⟩ := exists_first_token ho
  have hplace := startsAt_iff.1 (startsAt_reported ht)
  omega

end UsingStyle
