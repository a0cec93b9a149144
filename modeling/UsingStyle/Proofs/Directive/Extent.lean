import UsingStyle.Proofs.Directive.Dissection
import UsingStyle.Proofs.Token.Positions

/-! # Where directives stand in their source

A directive is found again in its source by the token at its place. Its text is the source from
there on, its name and alias are parts of that text, and the texts of two directives do not overlap.
In a source without carriage returns the place of a directive follows from its offset alone.
-/

namespace UsingStyle

open Grammar

/-! ## Sources without carriage returns -/

/-- The line that offset `n` is on starts at offset `k`. -/
structure StartsLineOf (source : List Char) (k n : Nat) : Prop where
  le : k ≤ n
  start : k = 0 ∨ source[k - 1]? = some '\n'
  no_feed : ∀ j, k ≤ j → j < n → source[j]? ≠ some '\n'

section WithoutReturn

variable {source : List Char} (h : '\r' ∉ source)

include h

theorem ne_return_of_not_mem (n : Nat) : source[n]? ≠ some '\r' := by
  intro heq
  exact h (List.mem_of_getElem? heq)

theorem insideBreak_of_not_mem (n : Nat) : insideBreak source n = false := by
  cases n with
  | zero => rfl
  | succ n => simp [insideBreak, ne_return_of_not_mem h n]

theorem endsBreak_succ_of_not_mem (n : Nat) :
    endsBreak source (n + 1) = (source[n]? == some '\n') := by
  simp [endsBreak, ne_return_of_not_mem h n]

theorem lineAt_eq_count (n : Nat) : lineAt source n = (source.take n).count '\n' := by
  induction n with
  | zero => rfl
  | succ n ih =>
      rw [List.take_add_one, List.count_append, ← ih]
      by_cases hfeed : source[n]? = some '\n'
      · have hends : endsBreak source (n + 1) = true := by
          simp [endsBreak_succ_of_not_mem h, hfeed]
        rw [lineAt_succ_of_endsBreak hends, hfeed]
        rfl
      · have hends : endsBreak source (n + 1) = false := by
          simp [endsBreak_succ_of_not_mem h, hfeed]
        have hcount : source[n]?.toList.count '\n' = 0 := by
          rw [List.count_eq_zero, Option.mem_toList]
          exact hfeed
        rw [lineAt_succ_of_not_endsBreak hends, hcount, Nat.add_zero]

theorem exists_columnAt_eq (n : Nat) :
    ∃ k, StartsLineOf source k n ∧ columnAt source n = n - k := by
  induction n with
  | zero => exact ⟨0, ⟨Nat.le_refl 0, .inl rfl, fun j _ hj => absurd hj (Nat.not_lt_zero j)⟩, rfl⟩
  | succ n ih =>
      by_cases hfeed : source[n]? = some '\n'
      · have hends : endsBreak source (n + 1) = true := by
          simp [endsBreak_succ_of_not_mem h, hfeed]
        refine ⟨n + 1, ⟨Nat.le_refl _, .inr hfeed, fun j hle hlt => by omega⟩, ?_⟩
        rw [columnAt_succ_of_endsBreak hends, Nat.sub_self]
      · have hends : endsBreak source (n + 1) = false := by
          simp [endsBreak_succ_of_not_mem h, hfeed]
        obtain ⟨k, hk, hcolumn⟩ := ih
        have hle := hk.le
        refine ⟨k, ⟨by omega, hk.start, fun j hkj hjn => ?_⟩, ?_⟩
        · by_cases hj : j = n
          · rwa [hj]
          · exact hk.no_feed j hkj (by omega)
        · rw [columnAt_succ_of_not_endsBreak hends, hcolumn]
          omega

theorem start_eq_of_not_mem {ts us : List Token} {t : Token}
    (htiling : Tiling .start source (ts ++ t :: us)) :
    t.start = ⟨lineAt source t.start.offset, columnAt source t.start.offset, t.start.offset⟩ := by
  have hzero : Position.start = countedPlace source 0 0 := rfl
  have hstart := htiling.start_eq_countedPlace hzero rfl rfl
  have hnone : ts.countP (·.splitsBreak source) = 0 := by
    rw [List.countP_eq_zero]
    intro u _
    rw [Token.splitsBreak, insideBreak_of_not_mem h]
    exact Bool.false_ne_true
  rw [hnone, countedPlace, insideBreak_of_not_mem h] at hstart
  exact hstart

end WithoutReturn

/-! ## Offsets -/

/-- The offset of the token at the place of the directive. -/
def Directive.offsetIn (text : String) (d : Directive) : Nat :=
  (((sourceTokens text).find? d.startsAt).map fun t => t.start.offset).getD 0

/-- The offset behind the text of the directive. -/
def Directive.stopIn (text : String) (d : Directive) : Nat :=
  d.offsetIn text + d.text.length

/-- Alias, name and text of the directive stand in the source one inside the other, from its offset
on. -/
structure Directive.StandsIn (d : Directive) (text : String) : Prop where
  offset_lt_stop : d.offsetIn text < d.stopIn text
  stop_le : d.stopIn text ≤ (Text.dropByteOrderMark text.toList).length
  text_eq : d.text = slice (Text.dropByteOrderMark text.toList) (d.offsetIn text) (d.stopIn text)
  opening : "using".toList <+: d.text.toList ∨ "global".toList <+: d.text.toList
  closing : ";".toList <:+ d.text.toList
  name : ∃ first ∈ sourceTokens text, ∃ last ∈ sourceTokens text,
    d.offsetIn text ≤ first.start.offset ∧ first.start.offset < last.stop ∧
      last.stop ≤ d.stopIn text ∧
      d.name = slice (Text.dropByteOrderMark text.toList) first.start.offset last.stop ∧
      ∀ a ∈ d.aliasName, ∃ t ∈ sourceTokens text, t.kind = .identifier ∧ t.text = a ∧
        d.offsetIn text ≤ t.start.offset ∧ t.stop ≤ first.start.offset
  place : '\r' ∉ Text.dropByteOrderMark text.toList →
    d.line = (((Text.dropByteOrderMark text.toList).take (d.offsetIn text)).count '\n' : Nat) ∧
      ∃ k, StartsLineOf (Text.dropByteOrderMark text.toList) k (d.offsetIn text) ∧
        d.column = (d.offsetIn text - k : Nat)

theorem eq_of_startsAt {text : String} {d : Directive} {t u : Token} (ht : t ∈ sourceTokens text)
    (hu : u ∈ sourceTokens text) (hdt : d.startsAt t = true) (hdu : d.startsAt u = true) :
    t = u := by
  obtain ⟨i, hi⟩ := List.getElem?_of_mem ht
  obtain ⟨j, hj⟩ := List.getElem?_of_mem hu
  have hle := not_lt_of_standsAt (standsAt_iff.2 ⟨t, hi, hdt⟩) (standsAt_iff.2 ⟨u, hj, hdu⟩)
  have hge := not_lt_of_standsAt (standsAt_iff.2 ⟨u, hj, hdu⟩) (standsAt_iff.2 ⟨t, hi, hdt⟩)
  have hij : i = j := by omega
  subst hij
  exact Option.some.inj (hi.symm.trans hj)

theorem offsetIn_eq_of_startsAt {text : String} {d : Directive} {t : Token}
    (ht : t ∈ sourceTokens text) (hd : d.startsAt t = true) :
    d.offsetIn text = t.start.offset := by
  unfold Directive.offsetIn
  cases hfind : (sourceTokens text).find? d.startsAt with
  | none => exact absurd hd (List.find?_eq_none.1 hfind t ht)
  | some u =>
      rw [eq_of_startsAt ht (List.mem_of_find?_eq_some hfind) hd (List.find?_some hfind)]
      rfl

/-! ## The parts of a directive in its source -/

theorem text_of_first {p : Phrase} (h : p.WellFormed) {first : Token}
    (hfirst : first ∈ p.tokens.head?) : first.text = "using" ∨ first.text = "global" := by
  unfold Phrase.tokens at hfirst
  cases hglobal : p.globalWord with
  | none =>
      rw [hglobal] at hfirst
      cases hfirst
      exact .inl h.usingWord
  | some t =>
      have hword := h.globalWord t hglobal
      rw [hglobal] at hfirst
      cases hfirst
      simp only [Token.isIdentifier, Bool.and_eq_true, beq_iff_eq] at hword
      exact .inr hword.2

namespace Dissection

variable {text : String} {o : Occurrence}

theorem sourceTokens_eq (D : Dissection text o) :
    sourceTokens text = withoutTrivia D.before ++ (D.phrase.opening ++
      (D.phrase.body.named ++ D.phrase.semicolon :: withoutTrivia D.behind)) := by
  show withoutTrivia (textTokens text) = _
  rw [D.tokens_eq, withoutTrivia_append, withoutTrivia_append, withoutTrivia_append,
    withoutTrivia_append, D.opening_eq, D.named_eq, D.withoutTrivia_gap,
    withoutTrivia_cons D.semicolon_eq, List.nil_append]

theorem offsetIn_reported (D : Dissection text o) :
    (reported text o).offsetIn text = (spelled D.before).length := by
  obtain ⟨first, more, hwhole, hfirst⟩ := D.exists_whole_eq_cons
  have hstart := D.start_first hwhole
  have hmem : first ∈ sourceTokens text := by
    rw [D.phrase.tokens_eq_front_append, D.phrase.front_eq_opening_append] at hfirst
    obtain ⟨word, words, hopening⟩ := D.phrase.exists_opening_eq_cons
    rw [hopening] at hfirst
    cases hfirst
    rw [D.sourceTokens_eq, hopening]
    simp
  have hplace : (reported text o).startsAt first = true := by
    rw [startsAt_iff, D.reported_eq, hstart]
    exact ⟨rfl, rfl⟩
  rw [offsetIn_eq_of_startsAt hmem hplace, hstart, D.offset_place]

theorem stopIn_reported (D : Dissection text o) :
    (reported text o).stopIn text = (spelled D.before).length + (spelled D.whole).length := by
  rw [Directive.stopIn, D.offsetIn_reported, D.reported_eq, String.length_ofList]

/-- The tokens in front of the directive end where it starts. -/
theorem stop_le_offsetIn (D : Dissection text o) {t : Token} (h : t ∈ D.before) :
    t.stop ≤ (reported text o).offsetIn text := by
  have hstop := D.tiling.append_left.stop_le h
  rwa [show Position.start.offset = 0 from rfl, Nat.zero_add, ← D.offsetIn_reported] at hstop

theorem bounds_of_mem_whole (D : Dissection text o) {t : Token} (h : t ∈ D.whole) :
    (reported text o).offsetIn text ≤ t.start.offset ∧ t.stop ≤ (reported text o).stopIn text := by
  have hstart := D.tiling_whole.offset_le_start h
  have hstop := D.tiling_whole.stop_le h
  rw [D.offset_place] at hstart hstop
  rw [D.offsetIn_reported, D.stopIn_reported]
  exact ⟨hstart, hstop⟩

/-- The tokens behind the directive start where it ends, or further on. -/
theorem stopIn_le_start (D : Dissection text o) {t : Token} (h : t ∈ D.behind) :
    (reported text o).stopIn text ≤ t.start.offset := by
  have hstart := D.tiling_behind.offset_le_start h
  rwa [D.tiling_whole.offset_placeAfter, D.offset_place, ← D.stopIn_reported] at hstart

theorem exists_spelled_whole_eq_cons (D : Dissection text o) :
    ∃ (first : Token) (more : List Char), spelled D.whole = first.text.toList ++ more ∧
      (first.text = "using" ∨ first.text = "global") := by
  obtain ⟨first, more, hwhole, hfirst⟩ := D.exists_whole_eq_cons
  refine ⟨first, spelled more, ?_, text_of_first D.wellFormed hfirst⟩
  rw [hwhole, spelled_cons]

theorem mem_sourceTokens_of_opening (D : Dissection text o) {t : Token}
    (h : t ∈ D.phrase.opening) : t ∈ sourceTokens text := by
  rw [D.sourceTokens_eq]
  simp [h]

theorem mem_sourceTokens_of_named (D : Dissection text o) {t : Token}
    (h : t ∈ D.phrase.body.named) : t ∈ sourceTokens text := by
  rw [D.sourceTokens_eq]
  simp [h]

/-- The name starts and ends with meaningful tokens. -/
theorem exists_name_tokens (D : Dissection text o) :
    ∃ first ∈ sourceTokens text, ∃ last ∈ sourceTokens text,
      first.start.offset = (spelled D.before).length + (spelled D.opening).length ∧
        last.stop = first.start.offset + (spelled D.named).length ∧
        first.start.offset < last.stop ∧
        slice (Text.dropByteOrderMark text.toList) first.start.offset last.stop =
          String.ofList (spelled D.named) := by
  have htiling := D.tiling_named
  obtain ⟨first, more, hnamed⟩ := D.phrase.body.exists_named_eq_cons
  obtain ⟨last, hlast⟩ : ∃ t, t ∈ D.phrase.body.named.getLast? := by
    rw [hnamed]
    exact ⟨_, List.getLast?_eq_some_getLast (List.cons_ne_nil _ _)⟩
  have hfirst : first ∈ D.named.head? := by
    rw [D.head_named, hnamed]
    rfl
  rw [← D.last_named] at hlast
  have hstart := htiling.offset_row hfirst
  have hstop := htiling.stop_row hlast
  have hwidth : first.stop ≤ last.stop := by
    obtain ⟨rest, hrest⟩ := List.head?_eq_some_iff.1 hfirst
    rw [hstop, Token.stop, hstart, hrest, spelled_cons, List.length_append, String.length_toList]
    omega
  have hpositive : first.start.offset < first.stop :=
    htiling.start_lt_stop (by simp [List.mem_of_mem_head? hfirst])
  refine ⟨first, D.mem_sourceTokens_of_named (by simp [hnamed]), last,
    D.mem_sourceTokens_of_named (List.mem_of_getLast? (D.last_named ▸ hlast)), ?_, by omega,
    by omega, slice_row htiling hfirst hlast⟩
  rw [hstart, spelled_append, List.length_append]

/-- The alias is an identifier in front of the name. -/
theorem exists_alias_token (D : Dissection text o) {a : String}
    (h : a ∈ D.phrase.body.aliasName?) :
    ∃ t ∈ sourceTokens text, t.kind = .identifier ∧ t.text = a ∧
      (spelled D.before).length ≤ t.start.offset ∧
      t.stop ≤ (spelled D.before).length + (spelled D.opening).length := by
  have hbody := D.wellFormed.body
  cases hshape : D.phrase.body with
  | name first rest =>
      rw [hshape] at h
      contradiction
  | target aliasName equals first rest =>
      rw [hshape] at h hbody
      cases h
      have hmem : aliasName ∈ D.phrase.opening := by
        simp [Phrase.opening, hshape, Body.opening]
      have hrow : aliasName ∈ D.opening := by
        rw [← D.opening_eq] at hmem
        exact (List.mem_filter.1 hmem).1
      obtain ⟨us, vs, hsplit⟩ := List.append_of_mem hrow
      have htiling : Tiling .start (Text.dropByteOrderMark text.toList)
          ((D.before ++ us) ++ ([aliasName] ++
            (vs ++ (D.named ++ (D.gap ++ D.phrase.semicolon :: D.behind))))) := by
        have hall : Tiling .start (Text.dropByteOrderMark text.toList) (textTokens text) :=
          StartsLineBehind.tiling_textTokens text
        rw [D.tokens_eq, hsplit] at hall
        simpa using hall
      have hstart : aliasName.start.offset = _ := htiling.offset_row rfl
      have hstop : aliasName.stop = _ := htiling.stop_row rfl
      rw [hsplit]
      simp only [spelled_append, spelled_cons, spelled_nil, List.append_nil, List.length_append]
        at hstart hstop ⊢
      exact ⟨aliasName, D.mem_sourceTokens_of_opening hmem, hbody.1, rfl, by omega, by omega⟩

theorem place_eq (D : Dissection text o) (h : '\r' ∉ Text.dropByteOrderMark text.toList) :
    D.place.line =
        ((Text.dropByteOrderMark text.toList).take (spelled D.before).length).count '\n' ∧
      ∃ k, StartsLineOf (Text.dropByteOrderMark text.toList) k (spelled D.before).length ∧
        D.place.column = (spelled D.before).length - k := by
  obtain ⟨first, more, hwhole, _⟩ := D.exists_whole_eq_cons
  have htiling := D.tiling
  rw [hwhole] at htiling
  have hplace := start_eq_of_not_mem h htiling
  rw [D.start_first hwhole, D.offset_place] at hplace
  have hline := congrArg Position.line hplace
  have hcolumn := congrArg Position.column hplace
  obtain ⟨k, hk, hdistance⟩ := exists_columnAt_eq h (spelled D.before).length
  exact ⟨hline.trans (lineAt_eq_count h _), k, hk, hcolumn.trans hdistance⟩

theorem length_spelled_whole (D : Dissection text o) :
    (spelled D.whole).length =
      (spelled D.opening).length + (spelled D.named).length + (spelled D.gap).length + 1 := by
  rw [whole, spelled_append, spelled_append, spelled_append, spelled_cons, D.wellFormed.semicolon]
  simp
  omega

theorem standsIn (D : Dissection text o) : (reported text o).StandsIn text := by
  have hreported := D.reported_eq
  have hwidth := D.length_spelled_whole
  have htext : (reported text o).text.toList = spelled D.whole := by
    rw [hreported, String.toList_ofList]
  have hoffset := D.offsetIn_reported
  have hstop := D.stopIn_reported
  constructor
  case offset_lt_stop => omega
  case stop_le =>
    rw [hstop, D.source_eq, List.length_append, List.length_append]
    omega
  case text_eq => rw [hoffset, hstop, D.source_eq, slice_append, hreported]
  case opening =>
    obtain ⟨first, more, hspelled, hword⟩ := D.exists_spelled_whole_eq_cons
    rw [htext, hspelled]
    rcases hword with hword | hword
    · exact .inl (hword ▸ List.prefix_append _ _)
    · exact .inr (hword ▸ List.prefix_append _ _)
  case closing =>
    rw [htext, whole, ← D.wellFormed.semicolon, ← List.append_assoc, ← List.append_assoc,
      spelled_append, spelled_cons, spelled_nil, List.append_nil]
    exact List.suffix_append _ _
  case name =>
    obtain ⟨first, hfirst, last, hlast, hstart, hend, hlt, hslice⟩ := D.exists_name_tokens
    refine ⟨first, hfirst, last, hlast, by omega, hlt, by omega, ?_, ?_⟩
    · rw [hslice, hreported]
    · intro a ha
      rw [hreported] at ha
      rw [hoffset, hstart]
      exact D.exists_alias_token ha
  case place =>
    intro hreturn
    obtain ⟨hline, k, hk, hcolumn⟩ := D.place_eq hreturn
    rw [hoffset, hreported]
    exact ⟨congrArg Nat.cast hline, k, hk, congrArg Nat.cast hcolumn⟩

end Dissection

theorem stopIn_le_offsetIn {text : String} {o o' : Occurrence}
    (ho : o ∈ occurrences (sourceTokens text)) (ho' : o' ∈ occurrences (sourceTokens text))
    (h : o.stop ≤ o'.index) :
    (reported text o).stopIn text ≤ (reported text o').offsetIn text := by
  have hpairwise : (sourceTokens text).Pairwise (fun t u => t.stop ≤ u.start.offset) :=
    (StartsLineBehind.tiling_textTokens text).pairwise_stop_le_start.filter _
  obtain ⟨first, last, hfirst, hlast, hlt, hlength⟩ := (spans_reported ho).exists_length_text
  obtain ⟨next, hnext⟩ := exists_first_token ho'
  have hstart := offsetIn_eq_of_startsAt (List.mem_of_getElem? hfirst) (startsAt_reported hfirst)
  have hstart' := offsetIn_eq_of_startsAt (List.mem_of_getElem? hnext) (startsAt_reported hnext)
  have hindex := index_lt_stop ho
  obtain ⟨hi, rfl⟩ := List.getElem?_eq_some_iff.1 hlast
  obtain ⟨hj, rfl⟩ := List.getElem?_eq_some_iff.1 hnext
  have hle := List.pairwise_iff_getElem.1 hpairwise (o.stop - 1) o'.index hi hj (by omega)
  rw [Directive.stopIn, hstart, hstart', hlength]
  omega

/-- Every directive stands in its source, and the next one starts where it has ended. -/
theorem scan_standsIn (text : String) :
    (scan text).Pairwise (fun d e => d.stopIn text ≤ e.offsetIn text) ∧
      ∀ d ∈ scan text, d.StandsIn text := by
  constructor
  · rw [scan_eq_map_reported, List.pairwise_map]
    exact (pairwise_occurrences _).imp_of_mem fun ho ho' h => stopIn_le_offsetIn ho ho' h
  · intro d hd
    obtain ⟨o, D, rfl⟩ := exists_dissection_of_mem_scan hd
    exact D.standsIn

/-- The second directive starts where the first one ends, and its name goes on behind a comment. -/
theorem standsIn_on_second_line :
    (scan "\uFEFF/* x\n*/using A;global using C = D./*\n*/E ;").map
        (Directive.stopIn "\uFEFF/* x\n*/using A;global using C = D./*\n*/E ;") = [15, 42] ∧
      '\r' ∉ Text.dropByteOrderMark "\uFEFF/* x\n*/using A;global using C = D./*\n*/E ;".toList ∧
      ∀ d ∈ scan "\uFEFF/* x\n*/using A;global using C = D./*\n*/E ;",
        d.StandsIn "\uFEFF/* x\n*/using A;global using C = D./*\n*/E ;" :=
  ⟨by decide +kernel, by decide, (scan_standsIn _).2⟩

end UsingStyle
