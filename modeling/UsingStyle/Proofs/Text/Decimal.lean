import UsingStyle.Untyped.IntegerText

/-! # Numerals are read back

The digits of a number are read as that number from the front of any text in which no further digit
follows them.
-/

namespace UsingStyle.Text

open Untyped

theorem isAsciiDigit_ofNat {n : Nat} (h : n < 10) :
    isAsciiDigit (Char.ofNat (0x30 + n)) = true := by
  revert n
  decide

theorem toNat_ofNat_digit {n : Nat} (h : n < 10) : (Char.ofNat (0x30 + n)).toNat - 0x30 = n := by
  revert n
  decide

theorem isAsciiDigit_of_mem_digits {n : Nat} {c : Char} (h : c ∈ digits n) :
    isAsciiDigit c = true := by
  fun_induction digits n with
  | case1 n hn =>
      rw [List.mem_singleton.1 h]
      exact isAsciiDigit_ofNat hn
  | case2 n hn ih =>
      rcases List.mem_append.1 h with h | h
      · exact ih h
      · rw [List.mem_singleton.1 h]
        exact isAsciiDigit_ofNat (Nat.mod_lt n (by decide))

theorem digitsValue_concat (cs : List Char) (c : Char) :
    digitsValue (cs ++ [c]) = digitsValue cs * 10 + (c.toNat - 0x30) := by
  rw [digitsValue, List.foldl_append]
  rfl

theorem digitsValue_digits (n : Nat) : digitsValue (digits n) = n := by
  fun_induction digits n with
  | case1 n hn =>
      have hvalue : digitsValue [Char.ofNat (0x30 + n)] = (Char.ofNat (0x30 + n)).toNat - 0x30 := by
        simp [digitsValue]
      rw [hvalue, toNat_ofNat_digit hn]
  | case2 n hn ih =>
      rw [digitsValue_concat, ih, toNat_ofNat_digit (Nat.mod_lt n (by decide))]
      omega

/-- The number that the digits in front spell, and what follows them. -/
def readNatural (cs : List Char) : Nat × List Char :=
  (digitsValue (cs.takeWhile isAsciiDigit), cs.dropWhile isAsciiDigit)

theorem readNatural_natural_append (n : Nat) {c : Char} (hc : isAsciiDigit c = false)
    (cs : List Char) : readNatural ((natural n).toList ++ c :: cs) = (n, c :: cs) := by
  have hdigits : ∀ d ∈ digits n, isAsciiDigit d = true := fun d hd => isAsciiDigit_of_mem_digits hd
  rw [natural, String.toList_ofList, readNatural, List.takeWhile_append_of_pos hdigits,
    List.dropWhile_append_of_pos hdigits, List.takeWhile_cons_of_neg (by simp [hc]),
    List.dropWhile_cons_of_neg (by simp [hc]), List.append_nil, digitsValue_digits]

end UsingStyle.Text
