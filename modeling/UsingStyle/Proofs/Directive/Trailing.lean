import UsingStyle.Proofs.Marking
import Mathlib.Data.List.TakeWhile

/-! # What follows a directive on its line

The scan keeps the trivia behind a directive whose line number is that of its first word, wherever
they stand in the row. Line numbers never decrease, so these are the first ones of the row, and what
they spell is one piece of the source: the blanks and comments from the semicolon on, as long as no
line break stands between the start of the directive and the next of them. A comment that goes on
over the end of the line is the last, and nothing follows a directive of several lines.
-/

namespace UsingStyle

open Text

/-! ## Longest runs -/

/-- The run is the longest one at the front of `xs` whose members all have the property. -/
structure LongestRun {α : Type} (P : α → Prop) (run xs : List α) : Prop where
  front : run <+: xs
  holds : ∀ x ∈ run, P x
  longest : ∀ other, other <+: xs → (∀ x ∈ other, P x) → other <+: run

theorem longestRun_takeWhile {α : Type} {P : α → Prop} {q : α → Bool} {xs : List α}
    (h : ∀ x ∈ xs, q x = true ↔ P x) : LongestRun P (xs.takeWhile q) xs where
  front := List.takeWhile_prefix q
  holds := fun x hx =>
    (h x ((List.takeWhile_prefix q).mem hx)).1 (List.all_eq_true.1 List.all_takeWhile x hx)
  longest := by
    rintro other hother hall
    have hmem : ∀ x ∈ other, q x = true := fun x hx => (h x (hother.mem hx)).2 (hall x hx)
    obtain ⟨more, rfl⟩ := hother
    rw [List.takeWhile_append_of_pos hmem]
    exact List.prefix_append _ _

/-- A property that is never regained once it is lost holds at the front. -/
theorem filter_eq_takeWhile {α : Type} {q : α → Bool} {xs : List α}
    (h : xs.Pairwise fun x y => q y = true → q x = true) : xs.filter q = xs.takeWhile q := by
  induction xs with
  | nil => rfl
  | cons x xs ih =>
      obtain ⟨hlater, hrest⟩ := List.pairwise_cons.1 h
      by_cases hx : q x = true
      · rw [List.filter_cons_of_pos hx, List.takeWhile_cons_of_pos hx, ih hrest]
      · rw [List.takeWhile_cons_of_neg hx, List.filter_eq_nil_iff]
        rintro y hy hq
        rcases List.mem_cons.1 hy with rfl | hy
        · exact hx hq
        · exact hx (hlater y hy hq)

theorem trailingOnLine_eq_takeWhile {line : Nat} {p : Position} {cs : List Char} {ts : List Token}
    (h : Tiling p cs ts) (hline : line ≤ p.line) :
    trailingOnLine line ts =
      (ts.takeWhile fun t => t.start.line == line ∧ t.kind.isTrailing).map Token.text := by
  have hle : ∀ t ∈ ts, line ≤ t.start.line := by
    intro t ht
    have hstart := h.start_eq_or_before ht
    unfold Position.Before at hstart
    rcases hstart with rfl | hstart <;> omega
  -- lines never decrease and start at `line` or below, so a row that has left it does not return
  have hordered : ts.Pairwise fun t u =>
      (u.start.line == line) = true → (t.start.line == line) = true := by
    refine h.pairwise_before.imp_of_mem fun {t u} ht _ hbefore => ?_
    have hlower := hle t ht
    unfold Position.Before at hbefore
    rw [beq_iff_eq, beq_iff_eq]
    omega
  rw [trailingOnLine, filter_eq_takeWhile (hordered.sublist (List.takeWhile_sublist _)),
    List.takeWhile_takeWhile]

/-! ## The tokens behind a directive -/

/-- The tokens of the source from the end of the directive on, trivia included. -/
def Directive.tokensBehind (text : String) (d : Directive) : List Token :=
  (textTokens text).filter fun t => d.stopIn text ≤ t.start.offset

/-- The token is a blank or a comment, and no line break stands between the first character of the
directive and the token. -/
structure Token.Trails (t : Token) (d : Directive) (text : String) : Prop where
  kind : t.kind = .whitespace ∨ t.kind = .lineComment ∨ t.kind = .blockComment
  unbroken : ∀ c ∈ (slice (dropByteOrderMark text.toList) (d.offsetIn text) t.start.offset).toList,
    isBreak c = false

theorem TokenKind.isTrailing_iff (kind : TokenKind) : kind.isTrailing = true ↔
    kind = .whitespace ∨ kind = .lineComment ∨ kind = .blockComment := by
  cases kind <;> decide

namespace Dissection

variable {text : String} {o : Occurrence}

theorem exists_semicolon (D : Dissection text o) :
    ∃ t ∈ sourceTokens text, t.text = ";" ∧ t.stop = (reported text o).stopIn text := by
  have hlast : D.phrase.semicolon ∈ D.whole.getLast? := by simp [whole]
  refine ⟨D.phrase.semicolon, ?_, D.wellFormed.semicolon, ?_⟩
  · rw [D.sourceTokens_eq]
    simp
  · rw [D.tiling.stop_row hlast, D.stopIn_reported]

theorem tokensBehind_reported (D : Dissection text o) :
    (reported text o).tokensBehind text = D.behind := by
  unfold Directive.tokensBehind
  rw [D.textTokens_eq, List.filter_append, List.filter_append, List.filter_eq_nil_iff.2,
    List.filter_eq_nil_iff.2, List.filter_eq_self.2, List.nil_append, List.nil_append]
  · intro t ht
    simpa using D.stopIn_le_start ht
  · intro t ht
    have hlt := D.tiling_whole.start_lt_stop ht
    have hstop := (D.bounds_of_mem_whole ht).2
    simp only [decide_eq_true_eq]
    omega
  · intro t ht
    have hlt := D.tiling.append_left.start_lt_stop ht
    have hstop := D.stop_le_offsetIn ht
    have hle : (reported text o).offsetIn text ≤ (reported text o).stopIn text :=
      Nat.le_add_right _ _
    simp only [decide_eq_true_eq]
    omega

section Behind

variable {us vs : List Token} {t : Token}

theorem slice_up_to (D : Dissection text o) (h : D.behind = us ++ t :: vs) :
    slice (dropByteOrderMark text.toList) ((reported text o).offsetIn text) t.start.offset =
      String.ofList (spelled (D.whole ++ us)) := by
  have htiling := D.tiling
  rw [h, ← List.append_assoc, ← List.append_assoc] at htiling
  have hsource := htiling.spelled_eq
  rw [List.append_assoc, List.append_assoc, ← List.append_assoc D.whole, spelled_append,
    spelled_append] at hsource
  rw [D.offsetIn_reported, htiling.offset_start, List.append_assoc, spelled_append,
    List.length_append, ← hsource, slice_append]

/-- A token behind the directive is on the first line of the directive exactly if no line break
stands in between. -/
theorem line_start_eq_iff (D : Dissection text o) (h : D.behind = us ++ t :: vs) :
    t.start.line = D.place.line ↔ ∀ c ∈ spelled (D.whole ++ us), isBreak c = false := by
  have htiling := D.tiling.append_right
  rw [h, ← List.append_assoc] at htiling
  rw [htiling.start_eq]
  exact line_placeAfter_eq_iff

theorem trails_iff (D : Dissection text o) (h : D.behind = us ++ t :: vs) :
    t.Trails (reported text o) text ↔
      t.start.line = D.place.line ∧ t.kind.isTrailing = true := by
  rw [D.line_start_eq_iff h, TokenKind.isTrailing_iff]
  constructor
  · rintro ⟨hkind, hunbroken⟩
    rw [D.slice_up_to h, String.toList_ofList] at hunbroken
    exact ⟨hunbroken, hkind⟩
  · rintro ⟨hunbroken, hkind⟩
    refine ⟨hkind, ?_⟩
    rwa [D.slice_up_to h, String.toList_ofList]

end Behind

/-- The trailing trivia are the longest run of tokens that trail the directive. -/
theorem exists_longestRun (D : Dissection text o) :
    ∃ run, LongestRun (fun t => t.Trails (reported text o) text) run D.behind ∧
      (reported text o).trailing = run.map Token.text := by
  have hline := line_le_line_placeAfter D.place D.whole
  have hiff : ∀ t ∈ D.behind,
      decide ((t.start.line == D.place.line) = true ∧ t.kind.isTrailing = true) = true ↔
        t.Trails (reported text o) text := by
    intro t ht
    obtain ⟨us, vs, hsplit⟩ := List.append_of_mem ht
    rw [D.trails_iff hsplit, decide_eq_true_iff, beq_iff_eq]
  refine ⟨_, longestRun_takeWhile hiff, ?_⟩
  rw [D.reported_eq]
  exact trailingOnLine_eq_takeWhile D.tiling_behind hline

/-- What a row behind the semicolon spells stands there in the source. -/
theorem slice_run (D : Dissection text o) {run : List Token} (h : run <+: D.behind) :
    (reported text o).stopIn text + (spelled run).length ≤ (dropByteOrderMark text.toList).length ∧
      String.join (run.map Token.text) = slice (dropByteOrderMark text.toList)
        ((reported text o).stopIn text) ((reported text o).stopIn text + (spelled run).length) := by
  obtain ⟨rest, hrest⟩ := h
  have htiling := D.tiling_behind
  rw [← hrest] at htiling
  have hsource := D.source_eq
  rw [← hrest, spelled_append, ← List.append_assoc] at hsource
  have hstop : (reported text o).stopIn text = (spelled D.before ++ spelled D.whole).length := by
    rw [D.stopIn_reported, List.length_append]
  constructor
  · rw [hsource, hstop, ← List.length_append, ← List.append_assoc]
    exact (List.prefix_append _ _).length_le
  · rw [htiling.append_left.join_texts, hsource, hstop, slice_append]

/-- The row goes on behind each of its tokens but the last, so these hold no line break. -/
theorem unbroken_dropLast (D : Dissection text o) {run : List Token} (h : run <+: D.behind)
    (htrails : ∀ t ∈ run, t.Trails (reported text o) text) :
    ∀ t ∈ run.dropLast, ∀ c ∈ t.text.toList, isBreak c = false := by
  rcases List.eq_nil_or_concat' run with rfl | ⟨init, last, rfl⟩
  · simp
  · obtain ⟨vs, hvs⟩ := h
    have hsplit : D.behind = init ++ last :: vs := by simp [← hvs]
    have hlast := ((D.trails_iff hsplit).1 (htrails last (by simp))).1
    rw [D.line_start_eq_iff hsplit, spelled_append] at hlast
    rw [List.dropLast_concat]
    intro t ht c hc
    exact hlast c (List.mem_append_right _ (List.mem_flatMap.2 ⟨t, ht, hc⟩))

end Dissection

/-! ## The trailing trivia in the source -/

/-- The trailing trivia of the directive are what its source shows behind the semicolon. -/
structure Directive.TrailingStandsIn (d : Directive) (text : String) : Prop where
  first : ∃ t ∈ sourceTokens text, d.startsAt t = true ∧ t.start.offset = d.offsetIn text
  text_eq : d.text = slice (dropByteOrderMark text.toList) (d.offsetIn text) (d.stopIn text)
  semicolon : ∃ t ∈ sourceTokens text, t.text = ";" ∧ t.stop = d.stopIn text
  run : ∃ run, LongestRun (fun t => t.Trails d text) run (d.tokensBehind text) ∧
    d.trailing = run.map Token.text
  join : ∃ stop, d.stopIn text ≤ stop ∧ stop ≤ (dropByteOrderMark text.toList).length ∧
    String.join d.trailing = slice (dropByteOrderMark text.toList) (d.stopIn text) stop
  unbroken : ∀ piece ∈ d.trailing.dropLast, ∀ c ∈ piece.toList, isBreak c = false
  eq_nil : ¬ d.OnOneLine → d.trailing = []

/-- The trailing trivia of every reported directive are what its source shows. -/
theorem trailingStandsIn_of_mem_scan {text : String} {d : Directive} (hd : d ∈ scan text) :
    d.TrailingStandsIn text := by
  obtain ⟨o, D, rfl⟩ := exists_dissection_of_mem_scan hd
  obtain ⟨run, hrun, htrailing⟩ := D.exists_longestRun
  constructor
  case first =>
    obtain ⟨k, hk⟩ := exists_standsAt hd
    obtain ⟨t, ht, hstarts⟩ := standsAt_iff.1 hk
    have hmem := List.mem_of_getElem? ht
    exact ⟨t, hmem, hstarts, (offsetIn_eq_of_startsAt hmem hstarts).symm⟩
  case text_eq => exact D.standsIn.text_eq
  case semicolon => exact D.exists_semicolon
  case run =>
    rw [D.tokensBehind_reported]
    exact ⟨run, hrun, htrailing⟩
  case join =>
    obtain ⟨hle, hjoin⟩ := D.slice_run hrun.front
    rw [htrailing]
    exact ⟨_, Nat.le_add_right _ _, hle, hjoin⟩
  case unbroken =>
    rw [htrailing, ← List.map_dropLast, List.forall_mem_map]
    exact D.unbroken_dropLast hrun.front hrun.holds
  case eq_nil => exact D.trailing_eq_nil

/-- A comment over the end of the line is the last piece, also where a carriage return alone has
broken the line before the directive. -/
theorem trailingStandsIn_behind_lone_return :
    (⟨"using A;", "A", 1, 2, none, [" ", "/* x\r\n*/"]⟩ : Directive) ∈
        scan "\uFEFF/*\r*/using A; /* x\r\n*/ // y" ∧
      (⟨"using A;", "A", 1, 2, none, [" ", "/* x\r\n*/"]⟩ : Directive).TrailingStandsIn
        "\uFEFF/*\r*/using A; /* x\r\n*/ // y" := by
  have hmem : (⟨"using A;", "A", 1, 2, none, [" ", "/* x\r\n*/"]⟩ : Directive) ∈
      scan "\uFEFF/*\r*/using A; /* x\r\n*/ // y" := by
    decide +kernel
  exact ⟨hmem, trailingStandsIn_of_mem_scan hmem⟩

end UsingStyle
