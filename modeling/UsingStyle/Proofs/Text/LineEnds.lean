import Mathlib.Data.String.Basic
import UsingStyle.Proofs.Text.Decimal
import UsingStyle.Text.Literal

/-! # Lines in the widest sense

Some readers end a line at more than a line feed: at carriage returns, at vertical tabs and form
feeds, at three of the information separators and at the line ends of Unicode. None of these is
printable, so a value that is shown as a literal never ends a line, whatever it holds.
-/

namespace UsingStyle.Text

/-- The characters that end a line for some reader. -/
def lineEnds : List Char :=
  ['\n', '\r', '\x0b', '\x0c', '\x1c', '\x1d', '\x1e', '\u0085', '\u2028', '\u2029']

/-- The lines of a text for a reader that ends them at all line ends. A carriage return and the line
feed behind it are one line end, and a line end at the end of the text starts no further line. -/
def splitLines : List Char → List (List Char)
  | [] => []
  | '\r' :: '\n' :: cs => [] :: splitLines cs
  | c :: cs =>
    if c ∈ lineEnds then [] :: splitLines cs
    else
      match splitLines cs with
      | [] => [[c]]
      | line :: lines => (c :: line) :: lines

/-- The lines of a text. -/
def lines (s : String) : List String :=
  (splitLines s.toList).map String.ofList

/-- The text has no line end. -/
def Unbroken (s : String) : Prop :=
  ∀ c ∈ s.toList, c ∉ lineEnds

/-! ## Unbroken lines in a row -/

theorem splitLines_cons {c : Char} (hc : c ∉ lineEnds) (cs : List Char) :
    splitLines (c :: cs) =
      match splitLines cs with
      | [] => [[c]]
      | line :: lines => (c :: line) :: lines := by
  have hreturn : c ≠ '\r' := by
    rintro rfl
    exact hc (by decide)
  rw [splitLines, if_neg hc]
  simp [hreturn]

theorem splitLines_feed (cs : List Char) : splitLines ('\n' :: cs) = [] :: splitLines cs := rfl

theorem splitLines_append {line : List Char} (h : ∀ c ∈ line, c ∉ lineEnds) (rest : List Char) :
    splitLines (line ++ '\n' :: rest) = line :: splitLines rest := by
  induction line with
  | nil => exact splitLines_feed rest
  | cons c line ih =>
      obtain ⟨hc, hline⟩ := List.forall_mem_cons.1 h
      rw [List.cons_append, splitLines_cons hc, ih hline]

/-- Lines that are written each with a line feed are the lines of the whole. -/
theorem lines_join {ls : List String} (h : ∀ line ∈ ls, Unbroken line) :
    lines (String.join (ls.map (· ++ "\n"))) = ls := by
  induction ls with
  | nil => rfl
  | cons line ls ih =>
      obtain ⟨hline, hls⟩ := List.forall_mem_cons.1 h
      have hfeed : (String.join ((line :: ls).map (· ++ "\n"))).toList =
          line.toList ++ '\n' :: (String.join (ls.map (· ++ "\n"))).toList := by
        simp [String.join_cons]
      rw [lines, hfeed, splitLines_append hline, List.map_cons, String.ofList_toList]
      exact congrArg (line :: ·) (ih hls)

/-! ## Unbroken texts -/

/-- The text of characters that are no line ends. A string that is written out is such a text. -/
theorem unbroken_ofList {cs : List Char} (h : cs.all (fun c => !lineEnds.contains c) = true) :
    Unbroken (String.ofList cs) := by
  intro c hc
  rw [String.toList_ofList] at hc
  simpa using List.all_eq_true.1 h c hc

theorem unbroken_append_iff {s t : String} : Unbroken (s ++ t) ↔ Unbroken s ∧ Unbroken t := by
  simp only [Unbroken, String.toList_append, List.forall_mem_append]

theorem unbroken_intercalate {separator : String} (hseparator : Unbroken separator)
    {ss : List String} (h : ∀ s ∈ ss, Unbroken s) : Unbroken (separator.intercalate ss) := by
  induction ss with
  | nil => exact fun c hc => absurd hc (by simp)
  | cons s ss ih =>
      obtain ⟨hs, hss⟩ := List.forall_mem_cons.1 h
      cases ss with
      | nil => simpa using hs
      | cons t ts =>
          rw [String.intercalate_cons_cons]
          exact unbroken_append_iff.2 ⟨unbroken_append_iff.2 ⟨hs, hseparator⟩, ih hss⟩

/-- A class of characters that no line end belongs to. -/
theorem not_mem_lineEnds_of {p : Char → Bool} (hp : lineEnds.any p = false) {c : Char}
    (h : p c = true) : c ∉ lineEnds :=
  fun hc => List.any_eq_false.1 hp c hc h

theorem unbroken_natural (n : Nat) : Unbroken (natural n) := by
  intro c hc
  rw [natural, String.toList_ofList] at hc
  exact not_mem_lineEnds_of (by decide) (isAsciiDigit_of_mem_digits hc)

theorem unbroken_integer (n : Int) : Unbroken (integer n) := by
  cases n with
  | ofNat n => exact unbroken_natural n
  | negSucc n =>
      exact unbroken_append_iff.2 ⟨unbroken_ofList (by decide), unbroken_natural (n + 1)⟩

/-! ## Literals -/

theorem not_mem_lineEnds_of_isPrintable {c : Char} (h : isPrintable c = true) : c ∉ lineEnds :=
  not_mem_lineEnds_of (by decide +kernel) h

theorem not_mem_lineEnds_of_mem_hex {width n : Nat} {c : Char} (h : c ∈ hex width n) :
    c ∉ lineEnds := by
  have hdigit : ∀ d < 16, hexDigit d ∉ lineEnds := by decide
  induction width generalizing n with
  | zero => contradiction
  | succ width ih =>
      rcases List.mem_append.1 h with h | h
      · exact ih h
      · rw [List.mem_singleton.1 h]
        exact hdigit _ (Nat.mod_lt n (by decide))

theorem not_mem_lineEnds_of_mem_escapeLiteral {q c d : Char} (hq : q ∉ lineEnds)
    (h : d ∈ escapeLiteral q c) : d ∉ lineEnds := by
  have hescape : ∀ {e : Char} {digits : List Char}, e ∉ lineEnds →
      (∀ x ∈ digits, x ∉ lineEnds) → d ∈ '\\' :: e :: digits → d ∉ lineEnds := by
    intro e digits he hdigits hd
    rcases List.mem_cons.1 hd with rfl | hd
    · decide
    · rcases List.mem_cons.1 hd with rfl | hd
      · exact he
      · exact hdigits d hd
  have hdigits : ∀ {width n : Nat}, ∀ x ∈ hex width n, x ∉ lineEnds :=
    fun x hx => not_mem_lineEnds_of_mem_hex hx
  rw [escapeLiteral] at h
  split_ifs at h with hself hfeed hreturn htab hprintable hbyte hunit
  · have hc : c ∉ lineEnds := by
      rcases Bool.or_eq_true_iff.1 hself with hquote | hbackslash
      · rwa [beq_iff_eq.1 hquote]
      · rw [beq_iff_eq.1 hbackslash]
        decide
    exact hescape hc (by simp) h
  · exact hescape (by decide) (by simp) h
  · exact hescape (by decide) (by simp) h
  · exact hescape (by decide) (by simp) h
  · rw [List.mem_singleton.1 h]
    exact not_mem_lineEnds_of_isPrintable hprintable
  · exact hescape (by decide) hdigits h
  · exact hescape (by decide) hdigits h
  · exact hescape (by decide) hdigits h

theorem literalQuote_not_mem_lineEnds (cs : List Char) : literalQuote cs ∉ lineEnds := by
  unfold literalQuote
  split <;> decide

/-- A literal has no line end, whatever it shows. -/
theorem unbroken_literal (s : String) : Unbroken (literal s) := by
  have hquote := literalQuote_not_mem_lineEnds s.toList
  intro c hc
  rw [literal, String.toList_ofList, List.cons_append, List.mem_cons, List.mem_append,
    List.mem_singleton] at hc
  rcases hc with rfl | hc | rfl
  · exact hquote
  · obtain ⟨d, -, hd⟩ := List.mem_flatMap.1 hc
    exact not_mem_lineEnds_of_mem_escapeLiteral hquote hd
  · exact hquote

end UsingStyle.Text
