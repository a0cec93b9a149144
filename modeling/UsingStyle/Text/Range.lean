/-! # Ranges of code points

A class of characters that no short rule describes is a table of closed intervals of code points.
-/

namespace UsingStyle.Text

/-- Whether the code point of `c` lies in one of the closed intervals of `table`. -/
def inRanges (table : List (Nat × Nat)) (c : Char) : Bool :=
  table.any fun r => r.1 ≤ c.toNat && c.toNat ≤ r.2

theorem inRanges_iff {table : List (Nat × Nat)} {c : Char} :
    inRanges table c = true ↔ ∃ r ∈ table, r.1 ≤ c.toNat ∧ c.toNat ≤ r.2 := by
  simp [inRanges, List.any_eq_true]

end UsingStyle.Text
