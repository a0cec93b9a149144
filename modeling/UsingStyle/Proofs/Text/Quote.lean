import UsingStyle.Text.Quote

/-! # Quoted text is read back

A quoted text is read from the front of any text. A backslash announces an escape of a known number
of characters, and the first double quote that no backslash announces ends the text. So no two texts
are quoted alike, and no quoted text is the start of another one.
-/

namespace UsingStyle.Text

/-! ## Hexadecimal digits -/

/-- The value of a lower-case hexadecimal digit. -/
def hexValue (c : Char) : Nat :=
  if c.toNat < 0x3A then c.toNat - 0x30 else c.toNat - 0x57

theorem hexValue_hexDigit {n : Nat} (h : n < 16) : hexValue (hexDigit n) = n := by
  revert n
  decide

theorem toNat_hexDigit {n : Nat} (h : n < 16) :
    0x20 ≤ (hexDigit n).toNat ∧ (hexDigit n).toNat ≠ 0x7F := by
  revert n
  decide

theorem hex_two (n : Nat) : hex 2 n = [hexDigit (n / 16 % 16), hexDigit (n % 16)] := rfl

/-! ## Reading -/

/-- The character that a letter behind a backslash stands for. -/
def unescape : Char → Option Char
  | '\\' => some '\\'
  | '"' => some '"'
  | 'n' => some '\n'
  | 't' => some '\t'
  | 'r' => some '\r'
  | '0' => some '\x00'
  | 'a' => some '\x07'
  | 'b' => some '\x08'
  | 'f' => some '\x0c'
  | 'v' => some '\x0b'
  | _ => none

/-- One more character in front of a text that was read. -/
def addRead (c : Char) (read : List Char × List Char) : List Char × List Char :=
  (c :: read.1, read.2)

/-- The text up to a closing double quote, and what follows the quote. -/
def readQuoted : List Char → Option (List Char × List Char)
  | '"' :: cs => some ([], cs)
  | '\\' :: 'x' :: high :: low :: cs =>
    (readQuoted cs).map (addRead (Char.ofNat (16 * hexValue high + hexValue low)))
  | '\\' :: c :: cs => (unescape c).bind fun d => (readQuoted cs).map (addRead d)
  | ['\\'] => none
  | c :: cs => (readQuoted cs).map (addRead c)
  | [] => none

theorem readQuoted_plain {c : Char} (hquote : c ≠ '"') (hbackslash : c ≠ '\\') (cs : List Char) :
    readQuoted (c :: cs) = (readQuoted cs).map (addRead c) := by
  rw [readQuoted]
  all_goals simp [hquote, hbackslash]

theorem readQuoted_hex {n : Nat} (h : n < 256) (cs : List Char) :
    readQuoted ('\\' :: 'x' :: (hex 2 n ++ cs)) =
      (readQuoted cs).map (addRead (Char.ofNat n)) := by
  have hhigh := hexValue_hexDigit (Nat.mod_lt (n / 16) (by decide : 0 < 16))
  have hlow := hexValue_hexDigit (Nat.mod_lt n (by decide : 0 < 16))
  have hvalue : 16 * (n / 16 % 16) + n % 16 = n := by omega
  rw [hex_two, List.cons_append, List.cons_append, List.nil_append, readQuoted, hhigh, hlow, hvalue]

/-- The written form of a character is read as that character, whatever follows. -/
theorem readQuoted_escapeQuoted (c : Char) (cs : List Char) :
    readQuoted (escapeQuoted c ++ cs) = (readQuoted cs).map (addRead c) := by
  unfold escapeQuoted
  split
  case h_11 hbackslash hquote _ _ _ _ _ _ _ _ =>
    split
    · rename_i hcontrol
      have hsmall : c.toNat < 256 := by
        simp only [Bool.or_eq_true, decide_eq_true_eq, beq_iff_eq] at hcontrol
        omega
      have hread := readQuoted_hex hsmall cs
      rwa [Char.ofNat_toNat] at hread
    · exact readQuoted_plain hquote hbackslash cs
  all_goals rfl

theorem readQuoted_flatMap (cs rest : List Char) :
    readQuoted (cs.flatMap escapeQuoted ++ '"' :: rest) = some (cs, rest) := by
  induction cs with
  | nil => rfl
  | cons c cs ih =>
      rw [List.flatMap_cons, List.append_assoc, readQuoted_escapeQuoted, ih]
      rfl

theorem toList_quote (s : String) :
    (quote s).toList = '"' :: (s.toList.flatMap escapeQuoted ++ ['"']) := by
  rw [quote, String.toList_ofList]
  rfl

/-- The text that is quoted at the front, and what follows it. -/
def readQuote? (s : String) : Option (String × String) :=
  match s.toList with
  | '"' :: cs => (readQuoted cs).map fun read => (String.ofList read.1, String.ofList read.2)
  | _ => none

theorem readQuote?_quote_append (a r : String) : readQuote? (quote a ++ r) = some (a, r) := by
  have hread := readQuoted_flatMap a.toList r.toList
  rw [readQuote?, String.toList_append, toList_quote, List.cons_append, List.append_assoc]
  simp only [List.singleton_append, hread, Option.map_some, String.ofList_toList]

/-! ## Control characters -/

theorem toNat_of_mem_escapeQuoted {c d : Char} (h : d ∈ escapeQuoted c) :
    0x20 ≤ d.toNat ∧ d.toNat ≠ 0x7F := by
  have hpair : ∀ e : Char, 0x20 ≤ e.toNat ∧ e.toNat ≠ 0x7F → d ∈ ['\\', e] →
      0x20 ≤ d.toNat ∧ d.toNat ≠ 0x7F := by
    intro e he hd
    rcases List.mem_cons.1 hd with rfl | hd
    · decide
    · rwa [List.mem_singleton.1 hd]
  unfold escapeQuoted at h
  split at h
  case h_11 =>
    split at h
    · simp only [hex_two, List.mem_cons, List.not_mem_nil, or_false] at h
      rcases h with rfl | rfl | rfl | rfl
      · decide
      · decide
      · exact toNat_hexDigit (Nat.mod_lt _ (by decide))
      · exact toNat_hexDigit (Nat.mod_lt _ (by decide))
    · rename_i hplain
      cases List.mem_singleton.1 h
      simpa using hplain
  all_goals exact hpair _ (by decide) h

/-- A quoted text has no control characters, so it stays on one line. -/
theorem toNat_of_mem_quote {s : String} {c : Char} (h : c ∈ (quote s).toList) :
    0x20 ≤ c.toNat ∧ c.toNat ≠ 0x7F := by
  rw [toList_quote, List.mem_cons, List.mem_append, List.mem_singleton] at h
  rcases h with rfl | h | rfl
  · decide
  · obtain ⟨d, _, hc⟩ := List.mem_flatMap.1 h
    exact toNat_of_mem_escapeQuoted hc
  · decide

/-! ## Quoting is a code -/

/-- A quoted text is read back exactly, whatever follows it. So two texts that start with quoted
texts are equal only if both their parts are. And no control character of the text is left in its
quoted form, line breaks included. -/
theorem quote_append_eq_iff (a b r s : String) :
    readQuote? (quote a ++ r) = some (a, r) ∧
      (quote a ++ r = quote b ++ s ↔ a = b ∧ r = s) ∧
        ∀ c ∈ (quote a).toList, 0x20 ≤ c.toNat ∧ c.toNat ≠ 0x7F := by
  refine ⟨readQuote?_quote_append a r, ⟨?_, ?_⟩, fun c hc => toNat_of_mem_quote hc⟩
  · intro h
    have hread := readQuote?_quote_append a r
    rw [h, readQuote?_quote_append b s] at hread
    cases hread
    exact ⟨rfl, rfl⟩
  · rintro ⟨rfl, rfl⟩
    rfl

/-- A null before a digit, and a backslash of the text before what would be an escape. -/
theorem readQuote?_null_before_digit :
    '0' ∈ (quote "\x001\\x1b").toList ∧
      readQuote? "\"\\01\\\\x1b\"b\"" = some ("\x001\\x1b", "b\"") ∧
        0x20 ≤ '0'.toNat ∧ '0'.toNat ≠ 0x7F := by
  have hquote : quote "\x001\\x1b" ++ "b\"" = "\"\\01\\\\x1b\"b\"" := by decide +kernel
  have hmem : '0' ∈ (quote "\x001\\x1b").toList := by decide +kernel
  obtain ⟨hread, _, hplain⟩ := quote_append_eq_iff "\x001\\x1b" "" "b\"" ""
  rw [hquote] at hread
  exact ⟨hmem, hread, hplain '0' hmem⟩

end UsingStyle.Text
