import UsingStyle.Proofs.Token.Restart

/-! # What tokens spell

The tokens of a text, cut into rows of tokens, cut the text alike: each row starts where the one
before it ends, and it spells the characters in between. The tokens of the last row are those of the
text that it spells.
-/

namespace UsingStyle

/-- The characters of the tokens, one token behind the other. -/
def spelled (ts : List Token) : List Char :=
  ts.flatMap fun t => t.text.toList

@[simp] theorem spelled_nil : spelled [] = [] := rfl

@[simp] theorem spelled_cons (t : Token) (ts : List Token) :
    spelled (t :: ts) = t.text.toList ++ spelled ts :=
  List.flatMap_cons

@[simp] theorem spelled_append (ts us : List Token) :
    spelled (ts ++ us) = spelled ts ++ spelled us :=
  List.flatMap_append

theorem placeAfter_append (p : Position) (ts us : List Token) :
    placeAfter p (ts ++ us) = placeAfter (placeAfter p ts) us :=
  List.foldl_append

/-! ## Rows of tokens -/

namespace Tiling

theorem spelled_eq {p : Position} {cs : List Char} {ts : List Token} (h : Tiling p cs ts) :
    spelled ts = cs := by
  induction h with
  | nil p => rfl
  | cons hstart hne hrest ih => rw [spelled_cons, ih]

theorem append_left {p : Position} {cs : List Char} {ts us : List Token}
    (h : Tiling p cs (ts ++ us)) : Tiling p (spelled ts) ts := by
  induction ts generalizing p cs with
  | nil => exact .nil p
  | cons t ts ih =>
      cases h with
      | cons hstart hne hrest => exact .cons hstart hne (ih hrest)

theorem append_right {p : Position} {cs : List Char} {ts us : List Token}
    (h : Tiling p cs (ts ++ us)) : Tiling (placeAfter p ts) (spelled us) us := by
  induction ts generalizing p cs with
  | nil =>
      have hus : Tiling p cs us := h
      rw [hus.spelled_eq]
      exact hus
  | cons t ts ih =>
      cases h with
      | cons hstart hne hrest => exact ih hrest

theorem start_eq {p : Position} {cs : List Char} {ts us : List Token} {t : Token}
    (h : Tiling p cs (ts ++ t :: us)) : t.start = placeAfter p ts :=
  h.append_right.start_head t rfl

theorem offset_start {cs : List Char} {ts us : List Token} {t : Token}
    (h : Tiling .start cs (ts ++ t :: us)) : t.start.offset = (spelled ts).length := by
  rw [h.start_eq, h.append_left.offset_placeAfter]
  exact Nat.zero_add _

theorem stop_of_split {cs : List Char} {ts us : List Token} {t : Token}
    (h : Tiling .start cs (ts ++ t :: us)) : t.stop = (spelled (ts ++ [t])).length := by
  rw [Token.stop, h.offset_start, ← String.length_toList, spelled_append, List.length_append]
  simp

/-- A row of tokens starts behind what the tokens before it spell. -/
theorem offset_row {cs : List Char} {ts us vs : List Token}
    (h : Tiling .start cs (ts ++ (us ++ vs))) {first : Token} (hfirst : first ∈ us.head?) :
    first.start.offset = (spelled ts).length := by
  obtain ⟨more, rfl⟩ := List.head?_eq_some_iff.1 hfirst
  exact h.offset_start

theorem stop_row {cs : List Char} {ts us vs : List Token} (h : Tiling .start cs (ts ++ (us ++ vs)))
    {last : Token} (hlast : last ∈ us.getLast?) :
    last.stop = (spelled ts).length + (spelled us).length := by
  obtain ⟨init, rfl⟩ := List.getLast?_eq_some_iff.1 hlast
  rw [List.append_assoc, ← List.append_assoc] at h
  have hstop := h.stop_of_split
  rw [List.append_assoc, spelled_append, List.length_append] at hstop
  exact hstop

/-- No token starts in front of the text. -/
theorem offset_le_start {p : Position} {cs : List Char} {ts : List Token} (h : Tiling p cs ts)
    {t : Token} (ht : t ∈ ts) : p.offset ≤ t.start.offset := by
  obtain ⟨us, vs, rfl⟩ := List.append_of_mem ht
  rw [h.start_eq, h.append_left.offset_placeAfter]
  exact Nat.le_add_right _ _

theorem pairwise_stop_le_start {p : Position} {cs : List Char} {ts : List Token}
    (h : Tiling p cs ts) : ts.Pairwise (fun t u => t.stop ≤ u.start.offset) := by
  induction h with
  | nil p => exact .nil
  | @cons p cs ts t hstart hne hrest ih =>
      refine List.pairwise_cons.2 ⟨fun u hu => ?_, ih⟩
      rw [stop_eq hstart]
      exact hrest.offset_le_start hu

end Tiling

/-- The tokens behind a token are the tokens of what they spell. -/
theorem eq_tokensFrom_of_split {p : Position} {fresh : Bool} {cs : List Char} {ts us : List Token}
    {t : Token} (h : tokensFrom p fresh cs = ts ++ t :: us) :
    ∃ fresh', us = tokensFrom (t.start.advance t.text.toList) (t.kind.keepsFresh fresh')
      (spelled us) := by
  fun_induction tokensFrom p fresh cs generalizing ts with
  | case1 p fresh => simp at h
  | case2 p fresh c cs opening length text =>
      rename_i ih
      cases ts with
      | nil =>
          obtain ⟨rfl, rfl⟩ := List.cons.inj h
          refine ⟨fresh, ?_⟩
          rw [(tiling_tokensFrom _ _ _).spelled_eq, String.toList_ofList]
      | cons u ts => exact ih (List.cons.inj h).2

/-! ## Lines -/

theorem line_advance_eq_iff {p : Position} {cs : List Char} :
    (p.advance cs).line = p.line ↔ ∀ c ∈ cs, Text.isBreak c = false := by
  constructor
  · fun_induction Position.advance p cs with
    | case1 p => simp
    | case2 p cs ih =>
        intro h
        have hle := Position.line_le_line_advance (p.down 2) cs
        rw [Position.line_down] at hle
        omega
    | case3 p cs _ ih =>
        intro h
        have hle := Position.line_le_line_advance (p.down 1) cs
        rw [Position.line_down] at hle
        omega
    | case4 p cs ih =>
        intro h
        have hle := Position.line_le_line_advance (p.down 1) cs
        rw [Position.line_down] at hle
        omega
    | case5 p c cs _ hreturn hfeed ih =>
        intro h
        refine List.forall_mem_cons.2 ⟨?_, ih h⟩
        simp only [Text.isBreak, Bool.or_eq_false_iff, beq_eq_false_iff_ne]
        exact ⟨hfeed, hreturn⟩
  · intro h
    rw [advance_of_inline h]

theorem line_le_line_placeAfter (p : Position) (ts : List Token) :
    p.line ≤ (placeAfter p ts).line := by
  induction ts generalizing p with
  | nil => exact Nat.le_refl _
  | cons t ts ih => exact Nat.le_trans (Position.line_le_line_advance p _) (ih _)

/-- Tokens lead to a later line exactly if they spell a line break. -/
theorem line_placeAfter_eq_iff {p : Position} {ts : List Token} :
    (placeAfter p ts).line = p.line ↔ ∀ c ∈ spelled ts, Text.isBreak c = false := by
  induction ts generalizing p with
  | nil => simp
  | cons t ts ih =>
      have hfirst := Position.line_le_line_advance p t.text.toList
      have hrest := line_le_line_placeAfter (p.advance t.text.toList) ts
      rw [placeAfter_cons, spelled_cons, List.forall_mem_append,
        ← ih (p := p.advance t.text.toList), ← line_advance_eq_iff (p := p)]
      omega

end UsingStyle
