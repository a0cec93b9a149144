import UsingStyle.Proofs.Text.Decimal
import UsingStyle.Proofs.Text.Quote

/-! # Texts of one line

A text without line feed stays one line when it is printed. Lines that are written each with its
line feed are found again by a cut at every line feed.
-/

namespace UsingStyle.Text

/-- The text has no line feed. -/
def IsOneLine (s : String) : Prop :=
  '\n' ∉ s.toList

instance (s : String) : Decidable (IsOneLine s) :=
  inferInstanceAs (Decidable ('\n' ∉ s.toList))

theorem isOneLine_ofList_iff {cs : List Char} : IsOneLine (String.ofList cs) ↔ '\n' ∉ cs := by
  rw [IsOneLine, String.toList_ofList]

theorem isOneLine_append_iff {s t : String} :
    IsOneLine (s ++ t) ↔ IsOneLine s ∧ IsOneLine t := by
  rw [IsOneLine, String.toList_append, List.mem_append, not_or]
  rfl

theorem isOneLine_quote (s : String) : IsOneLine (quote s) := fun h =>
  absurd (toNat_of_mem_quote h).1 (by decide)

theorem isOneLine_natural (n : Nat) : IsOneLine (natural n) :=
  isOneLine_ofList_iff.2 fun h => absurd (isAsciiDigit_of_mem_digits h) (by decide)

theorem isOneLine_integer (n : Int) : IsOneLine (integer n) := by
  cases n with
  | ofNat n => exact isOneLine_natural n
  | negSucc n => exact isOneLine_append_iff.2 ⟨by decide, isOneLine_natural (n + 1)⟩

/-! ## Lines in a row -/

/-- The lines of a text, without the line feeds that end them. -/
def linesOf (s : String) : List String :=
  (s.toList.splitOn '\n').dropLast.map String.ofList

theorem splitOn_lines {lines : List String} (h : ∀ line ∈ lines, IsOneLine line) :
    (lines.flatMap fun line => (line ++ "\n").toList).splitOn '\n' =
      lines.map String.toList ++ [[]] := by
  induction lines with
  | nil => rfl
  | cons line lines ih =>
      obtain ⟨hline, hlines⟩ := List.forall_mem_cons.1 h
      have hplain : ∀ c ∈ line.toList, (c == '\n') = false := by
        intro c hc
        exact beq_false_of_ne fun heq => hline (heq ▸ hc)
      have hcut : ∀ rest : List Char, ((line ++ "\n").toList ++ rest).splitOn '\n' =
          line.toList :: rest.splitOn '\n' := by
        intro rest
        have hfeed : (line ++ "\n").toList ++ rest = line.toList ++ '\n' :: rest := by
          rw [String.toList_append, List.append_assoc]
          rfl
        rw [hfeed, List.splitOn, List.splitOnP_append_cons _ _ (by decide),
          List.splitOnP_eq_singleton hplain]
        rfl
      rw [List.flatMap_cons, hcut, ih hlines]
      rfl

theorem linesOf_join {lines : List String} (h : ∀ line ∈ lines, IsOneLine line) :
    linesOf (String.join (lines.map (· ++ "\n"))) = lines := by
  rw [linesOf, String.toList_join, List.flatMap_map, splitOn_lines h, List.dropLast_concat,
    List.map_map]
  simp [Function.comp_def]

end UsingStyle.Text
