import UsingStyle.Text.Range

/-! # Blank characters

The blanks of every script, line breaks included, and the removal of blanks from the ends of a
text. Zero-width characters and the byte-order mark are not blank.
-/

namespace UsingStyle.Text

/-- Code points of the blanks. -/
def blankTable : List (Nat × Nat) :=
  [(0x09, 0x0D), (0x1C, 0x20), (0x85, 0x85), (0xA0, 0xA0), (0x1680, 0x1680), (0x2000, 0x200A),
   (0x2028, 0x2029), (0x202F, 0x202F), (0x205F, 0x205F), (0x3000, 0x3000)]

/-- A blank character. -/
def isBlank (c : Char) : Bool :=
  inRanges blankTable c

/-- A character that ends a line. -/
def isBreak (c : Char) : Bool :=
  c == '\n' || c == '\r'

/-- A blank that stays on its line. -/
def isInlineBlank (c : Char) : Bool :=
  isBlank c && !isBreak c

theorem isBlank_of_isBreak {c : Char} (h : isBreak c = true) : isBlank c = true := by
  simp only [isBreak, Bool.or_eq_true, beq_iff_eq] at h
  rcases h with rfl | rfl <;> decide

/-- The text without the blanks at its start. -/
def trimStart (s : String) : String :=
  String.ofList (s.toList.dropWhile isBlank)

/-- The text without the blanks at its end. -/
def trimEnd (s : String) : String :=
  String.ofList (s.toList.reverse.dropWhile isBlank).reverse

/-- The text without the blanks at either end. -/
def trim (s : String) : String :=
  trimEnd (trimStart s)

theorem toList_trim (cs : List Char) :
    (trim (String.ofList cs)).toList =
      ((cs.dropWhile isBlank).reverse.dropWhile isBlank).reverse := by
  simp [trim, trimEnd, trimStart]

/-- A text is what remains of it between two runs of blanks. -/
theorem exists_blanks_around_trim (cs : List Char) :
    ∃ before after, (∀ c ∈ before, isBlank c = true) ∧ (∀ c ∈ after, isBlank c = true) ∧
      cs = before ++ ((trim (String.ofList cs)).toList ++ after) := by
  refine ⟨cs.takeWhile isBlank, ((cs.dropWhile isBlank).reverse.takeWhile isBlank).reverse,
    List.all_eq_true.1 List.all_takeWhile, fun c hc => ?_, ?_⟩
  · exact List.all_eq_true.1 List.all_takeWhile c (List.mem_reverse.1 hc)
  · rw [toList_trim, ← List.reverse_append, List.takeWhile_append_dropWhile, List.reverse_reverse,
      List.takeWhile_append_dropWhile]

theorem dropWhile_of_head? {α : Type} {q : α → Bool} {xs : List α}
    (h : ∀ x ∈ xs.head?, q x = false) : xs.dropWhile q = xs := by
  cases xs with
  | nil => rfl
  | cons x xs => simp [h x rfl]

theorem eq_false_of_head?_dropWhile {α : Type} {q : α → Bool} {xs : List α} {x : α}
    (h : x ∈ (xs.dropWhile q).head?) : q x = false := by
  have hhead := List.head?_dropWhile_not q xs
  rw [Option.mem_def.1 h] at hhead
  exact hhead

theorem trim_between_blanks {before w after : List Char} (hne : w ≠ [])
    (hfirst : ∀ c ∈ w.head?, isBlank c = false) (hlast : ∀ c ∈ w.getLast?, isBlank c = false)
    (hbefore : ∀ c ∈ before, isBlank c = true) (hafter : ∀ c ∈ after, isBlank c = true) :
    trim (String.ofList (before ++ (w ++ after))) = String.ofList w := by
  have hstart : ∀ c ∈ (w ++ after).head?, isBlank c = false := by
    obtain ⟨c, rest, rfl⟩ := List.exists_cons_of_ne_nil hne
    exact hfirst
  have hend : ∀ c ∈ w.reverse.head?, isBlank c = false := by
    rwa [List.head?_reverse]
  have hback : ∀ c ∈ after.reverse, isBlank c = true := by
    intro c hc
    exact hafter c (List.mem_reverse.1 hc)
  rw [← String.toList_inj, toList_trim, String.toList_ofList,
    List.dropWhile_append_of_pos hbefore, dropWhile_of_head? hstart, List.reverse_append,
    List.dropWhile_append_of_pos hback, dropWhile_of_head? hend, List.reverse_reverse]

theorem trim_eq_iff {cs w : List Char} (hne : w ≠ []) (hfirst : ∀ c ∈ w.head?, isBlank c = false)
    (hlast : ∀ c ∈ w.getLast?, isBlank c = false) :
    trim (String.ofList cs) = String.ofList w ↔
      ∃ before after, (∀ c ∈ before, isBlank c = true) ∧ (∀ c ∈ after, isBlank c = true) ∧
        cs = before ++ (w ++ after) := by
  constructor
  · intro h
    have hcut := exists_blanks_around_trim cs
    rwa [h, String.toList_ofList] at hcut
  · rintro ⟨before, after, hbefore, hafter, rfl⟩
    exact trim_between_blanks hne hfirst hlast hbefore hafter

end UsingStyle.Text
