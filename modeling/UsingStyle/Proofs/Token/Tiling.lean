import UsingStyle.Token.Lexer

/-! # Tokens tile their text

The tokens of a text stand one behind the other, each where the one before ended, and none is
empty. So their places are strictly increasing, whatever line breaks stand inside and between them.
-/

namespace UsingStyle

/-! ## Places -/

namespace Position

/-- On an earlier line, or further left on the same line. -/
def Before (p q : Position) : Prop :=
  p.line < q.line ∨ p.line = q.line ∧ p.column < q.column

theorem Before.trans {p q r : Position} (hpq : p.Before q) (hqr : q.Before r) : p.Before r := by
  unfold Before at *
  omega

@[simp] theorem column_right (p : Position) : p.right.column = p.column + 1 := rfl

/-- Characters lead to a later line, or further right by their number. -/
theorem line_lt_or_column_advance (p : Position) (cs : List Char) :
    p.line < (p.advance cs).line ∨
      p.line = (p.advance cs).line ∧ (p.advance cs).column = p.column + cs.length := by
  have hdown : ∀ (q : Position) (width : Nat) (ds : List Char),
      q.line < ((q.down width).advance ds).line := fun q width ds => by
    have h := line_le_line_advance (q.down width) ds
    rw [line_down] at h
    omega
  fun_induction advance p cs with
  | case1 p => exact .inr ⟨rfl, rfl⟩
  | case2 p cs ih => exact .inl (hdown p 2 cs)
  | case3 p cs _ ih => exact .inl (hdown p 1 cs)
  | case4 p cs ih => exact .inl (hdown p 1 cs)
  | case5 p c cs _ _ _ ih =>
      rw [line_right, column_right] at ih
      rw [List.length_cons]
      omega

theorem before_advance (p : Position) {cs : List Char} (h : cs ≠ []) : p.Before (p.advance cs) := by
  have hpos := List.length_pos_iff.2 h
  rcases line_lt_or_column_advance p cs with hline | ⟨hline, hcolumn⟩
  · exact .inl hline
  · exact .inr ⟨hline, by omega⟩

end Position

/-! ## Tilings -/

/-- The tokens `ts` make up the text `cs`, which starts at `p`. -/
inductive Tiling : Position → List Char → List Token → Prop
  | nil (p : Position) : Tiling p [] []
  | cons {p : Position} {cs : List Char} {ts : List Token} {t : Token} (hstart : t.start = p)
      (hne : t.text.toList ≠ []) (hrest : Tiling (p.advance t.text.toList) cs ts) :
      Tiling p (t.text.toList ++ cs) (t :: ts)

theorem tiling_tokensFrom (p : Position) (fresh : Bool) (cs : List Char) :
    Tiling p cs (tokensFrom p fresh cs) := by
  fun_induction tokensFrom p fresh cs with
  | case1 p fresh => exact .nil p
  | case2 p fresh c cs opening length text ih =>
      have htext : (String.ofList text).toList = text := String.toList_ofList
      have hne : (String.ofList text).toList ≠ [] := by
        have hpos := Lexeme.length_pos fresh c cs
        rw [htext]
        intro hnil
        have hlen := congrArg List.length hnil
        simp only [text, length, opening, List.length_take, List.length_cons, List.length_nil]
          at hlen
        omega
      have hcut : c :: cs = (String.ofList text).toList ++ (c :: cs).drop length := by
        rw [htext]
        exact (List.take_append_drop length (c :: cs)).symm
      rw [hcut]
      refine .cons (t := ⟨opening.kind, String.ofList text, p⟩) rfl hne ?_
      rw [← hcut, htext]
      exact ih

namespace Tiling

theorem start_eq_or_before {p : Position} {cs : List Char} {ts : List Token} (h : Tiling p cs ts)
    {t : Token} (ht : t ∈ ts) : t.start = p ∨ p.Before t.start := by
  induction h with
  | nil p => simp at ht
  | @cons p cs ts u hstart hne hrest ih =>
      rcases List.mem_cons.1 ht with rfl | htail
      · exact .inl hstart
      · have hstep := p.before_advance hne
        rcases ih htail with heq | hlater
        · exact .inr (heq ▸ hstep)
        · exact .inr (hstep.trans hlater)

theorem pairwise_before {p : Position} {cs : List Char} {ts : List Token} (h : Tiling p cs ts) :
    ts.Pairwise (fun a b => a.start.Before b.start) := by
  induction h with
  | nil p => exact .nil
  | @cons p cs ts u hstart hne hrest ih =>
      refine List.pairwise_cons.2 ⟨fun t ht => ?_, ih⟩
      have hstep := p.before_advance hne
      rw [hstart]
      rcases hrest.start_eq_or_before ht with heq | hlater
      · exact heq ▸ hstep
      · exact hstep.trans hlater

end Tiling

end UsingStyle
