import UsingStyle.Proofs.Directive.Concatenation
import UsingStyle.Proofs.Directive.Recognition
import UsingStyle.Proofs.Token.Partition

/-! # The tokens that write a directive

A directive that the scan reports is written by a run of meaningful tokens of its text: its place is
that of the first one, and its own text ends where the last one ends. The run is determined by the
directive, so the indices of its tokens can be spoken of without the scan.
-/

namespace UsingStyle

theorem length_slice {source : List Char} {start stop : Nat} (h : stop ≤ source.length) :
    (slice source start stop).length = stop - start := by
  rw [slice, String.length_ofList, List.length_take, List.length_drop]
  omega

/-! ## Spans -/

/-- The directive is written by the tokens of the text with the indices from `i` up to `j`. -/
def Directive.Spans (text : String) (d : Directive) (i j : Nat) : Prop :=
  i < j ∧ ∃ first last, (sourceTokens text)[i]? = some first ∧
    (sourceTokens text)[j - 1]? = some last ∧ d.startsAt first = true ∧
    d.text = slice (Text.dropByteOrderMark text.toList) first.start.offset last.stop

theorem mem_textTokens {text : String} {k : Nat} {t : Token}
    (h : (sourceTokens text)[k]? = some t) : t ∈ textTokens text :=
  (List.mem_filter.1 (List.mem_of_getElem? h)).1

theorem stop_lt_of_index_lt {text : String} {i j : Nat} {t u : Token}
    (ht : (sourceTokens text)[i]? = some t) (hu : (sourceTokens text)[j]? = some u) (hij : i < j) :
    t.stop < u.stop := by
  have hpairwise : (sourceTokens text).Pairwise (fun t u => t.stop < u.stop) :=
    (StartsLineBehind.tiling_textTokens text).pairwise_stop_lt.filter _
  obtain ⟨hi, rfl⟩ := List.getElem?_eq_some_iff.1 ht
  obtain ⟨hj, rfl⟩ := List.getElem?_eq_some_iff.1 hu
  exact List.pairwise_iff_getElem.1 hpairwise i j hi hj hij

namespace Directive.Spans

variable {text : String} {d : Directive} {i j i' j' : Nat}

theorem standsAt (h : d.Spans text i j) : d.standsAt text i = true := by
  obtain ⟨_, first, _, hfirst, _, hstarts, _⟩ := h
  exact standsAt_iff.2 ⟨first, hfirst, hstarts⟩

theorem start_eq (h : d.Spans text i j) (h' : d.Spans text i' j') : i = i' := by
  have hle := not_lt_of_standsAt h.standsAt h'.standsAt
  have hge := not_lt_of_standsAt h'.standsAt h.standsAt
  omega

/-- The text of the directive is as long as its tokens reach. -/
theorem exists_length_text (h : d.Spans text i j) :
    ∃ first last, (sourceTokens text)[i]? = some first ∧
      (sourceTokens text)[j - 1]? = some last ∧ first.start.offset < last.stop ∧
      d.text.length = last.stop - first.start.offset := by
  obtain ⟨hij, first, last, hfirst, hlast, _, htext⟩ := h
  have htiling := StartsLineBehind.tiling_textTokens text
  have hwidth := htiling.start_lt_stop (mem_textTokens hfirst)
  have hstop := htiling.stop_le (mem_textTokens hlast)
  rw [show Position.start.offset = 0 from rfl, Nat.zero_add] at hstop
  refine ⟨first, last, hfirst, hlast, ?_, by rw [htext, length_slice hstop]⟩
  by_cases hone : i = j - 1
  · subst hone
    cases hfirst.symm.trans hlast
    exact hwidth
  · have hlater := stop_lt_of_index_lt hfirst hlast (by omega)
    omega

/-- A directive has one run of tokens. -/
theorem unique (h : d.Spans text i j) (h' : d.Spans text i' j') : i = i' ∧ j = j' := by
  cases h.start_eq h'
  refine ⟨rfl, ?_⟩
  have hij := h.1
  have hij' := h'.1
  obtain ⟨first, last, hfirst, hlast, hlt, hlen⟩ := h.exists_length_text
  obtain ⟨first', last', hfirst', hlast', hlt', hlen'⟩ := h'.exists_length_text
  cases hfirst.symm.trans hfirst'
  -- both runs end at the same offset, and later tokens end further right
  have hstop : last.stop = last'.stop := by omega
  by_cases hless : j - 1 < j' - 1
  · have := stop_lt_of_index_lt hlast hlast' hless
    omega
  · by_cases hmore : j' - 1 < j - 1
    · have := stop_lt_of_index_lt hlast' hlast hmore
      omega
    · omega

end Directive.Spans

theorem fst_getD_meaningful {ts : List Token} {k i : Nat} {t : Token}
    (h : (ts.filter fun t => !t.isTrivia)[k + i]? = some t) :
    (((meaningful ts).drop k).getD i default).1 = t := by
  rw [← map_fst_meaningful, List.getElem?_map] at h
  obtain ⟨item, hitem, rfl⟩ := Option.map_eq_some_iff.1 h
  rw [List.getD_eq_getElem?_getD, List.getElem?_drop, hitem]
  rfl

/-- A reported directive is written by the tokens of its occurrence. -/
theorem spans_reported {text : String} {o : Occurrence}
    (h : o ∈ occurrences (sourceTokens text)) :
    (reported text o).Spans text o.index o.stop := by
  obtain ⟨first, hfirst⟩ := exists_first_token h
  obtain ⟨j, last, hj, hlast, _⟩ := exists_semicolon_of_mem h
  have hlt := index_lt_stop h
  have hindex : o.index + (o.clause.length - 1) = j := by
    unfold Occurrence.stop at hj hlt
    omega
  refine ⟨hlt, first, last, hfirst, ?_, startsAt_reported hfirst, ?_⟩
  · rw [← hj]
    exact hlast
  · rw [← hindex] at hlast
    unfold reported Directive.ofClause
    dsimp only
    rw [fst_getD_meaningful hfirst, fst_getD_meaningful hlast]

/-! ## The same tokens in two texts -/

/-- The directives have one alias, and the runs of tokens that write them stand alike behind the
first `m` tokens of `a` and the first `n` tokens of `b`. -/
def Directive.SameRun (a b : String) (m n : Nat) (d e : Directive) : Prop :=
  d.aliasName = e.aliasName ∧ ∃ i j, d.Spans a (m + i) (m + j) ∧ e.Spans b (n + i) (n + j)

theorem sameRun_reported {a b : String} {m n : Nat} {o : Occurrence}
    (ha : o.after m ∈ occurrences (sourceTokens a))
    (hb : o.after n ∈ occurrences (sourceTokens b)) :
    Directive.SameRun a b m n (reported a (o.after m)) (reported b (o.after n)) := by
  have hstop : ∀ k, (o.after k).stop = k + o.stop := fun k => Nat.add_assoc k _ _
  refine ⟨rfl, o.index, o.stop, ?_, ?_⟩
  · rw [← hstop m]
    exact spans_reported ha
  · rw [← hstop n]
    exact spans_reported hb

/-- Occurrences that are found in both texts, moved behind other tokens, are reported alike. -/
theorem forall₂_sameRun {a b : String} {m n : Nat} {os : List Occurrence}
    (ha : ∀ o ∈ os, o.after m ∈ occurrences (sourceTokens a))
    (hb : ∀ o ∈ os, o.after n ∈ occurrences (sourceTokens b)) :
    List.Forall₂ (Directive.SameRun a b m n) ((os.map (Occurrence.after m)).map (reported a))
      ((os.map (Occurrence.after n)).map (reported b)) := by
  rw [List.map_map, List.map_map, List.forall₂_map_left_iff, List.forall₂_map_right_iff,
    List.forall₂_same]
  intro o ho
  exact sameRun_reported (ha o ho) (hb o ho)

theorem Occurrence.after_zero : Occurrence.after 0 = id := by
  funext o
  rw [Occurrence.after, Nat.zero_add]
  rfl

theorem forall₂_sameRun_zero {a b : String} {os : List Occurrence}
    (ha : ∀ o ∈ os, o ∈ occurrences (sourceTokens a))
    (hb : ∀ o ∈ os, o ∈ occurrences (sourceTokens b)) :
    List.Forall₂ (Directive.SameRun a b 0 0) (os.map (reported a)) (os.map (reported b)) := by
  have hsame : os.map (Occurrence.after 0) = os := by
    rw [Occurrence.after_zero, List.map_id]
  have h := forall₂_sameRun (m := 0) (n := 0) (a := a) (b := b)
    (fun o ho => by simpa [Occurrence.after_zero] using ha o ho)
    (fun o ho => by simpa [Occurrence.after_zero] using hb o ho)
  rwa [hsame] at h

end UsingStyle
