import Mathlib.Data.String.Basic
import UsingStyle.Encoding.Utf16
import UsingStyle.Proofs.Text.Decimal
import UsingStyle.Report.Json

/-! # Tokens of JSON texts

A JSON text is a row of tokens with blanks between them. A string token ends at the first quote that
no backslash announces, and an escape stands for one unit of its text. Numbers are whole here. The
written form of a string or number is read as this one token, whatever blanks and other tokens
follow it.
-/

namespace UsingStyle.Json

open Text Encoding.Utf16

/-- A token of a JSON text. -/
inductive Token where
  | openArray
  | closeArray
  | openObject
  | closeObject
  | comma
  | colon
  | text (s : String)
  | number (n : Int)
  | bool (b : Bool)
  | null
  deriving DecidableEq, Repr

/-! ## Reading strings -/

/-- The value of a hexadecimal digit in either case. -/
def hexValue? (c : Char) : Option Nat :=
  if '0' ≤ c && c ≤ '9' then some (c.toNat - 0x30)
  else if 'a' ≤ c && c ≤ 'f' then some (c.toNat - 0x57)
  else if 'A' ≤ c && c ≤ 'F' then some (c.toNat - 0x37)
  else none

/-- The unit that four hexadecimal digits spell. -/
def unit? (a b c d : Char) : Option Nat := do
  return 0x1000 * (← hexValue? a) + 0x100 * (← hexValue? b) + 0x10 * (← hexValue? c) +
    (← hexValue? d)

/-- The character that a letter behind a backslash stands for. -/
def unescape? : Char → Option Char
  | '"' => some '"'
  | '\\' => some '\\'
  | '/' => some '/'
  | 'b' => some '\x08'
  | 'f' => some '\x0c'
  | 'n' => some '\n'
  | 'r' => some '\r'
  | 't' => some '\t'
  | _ => none

/-- One more unit in front of those that were read. -/
def addUnit (u : Nat) (read : List Nat × List Char) : List Nat × List Char :=
  (u :: read.1, read.2)

/-- The units of a string up to its closing quote, and what follows the quote. A string holds no
control character below the blank. -/
def readUnits? : List Char → Option (List Nat × List Char)
  | '"' :: cs => some ([], cs)
  | '\\' :: 'u' :: a :: b :: c :: d :: cs =>
    (unit? a b c d).bind fun u => (readUnits? cs).map (addUnit u)
  | '\\' :: c :: cs => (unescape? c).bind fun d => (readUnits? cs).map (addUnit d.toNat)
  | c :: cs =>
    if c == '\\' || c.toNat < 0x20 then none else (readUnits? cs).map (addUnit c.toNat)
  | [] => none

/-- The characters of units; the two halves of a pair make one character, and neither stands
alone. -/
def characters? : List Nat → Option (List Char)
  | [] => some []
  | u :: us =>
    if isHigh u then
      match us with
      | v :: rest => if isLow v then (characters? rest).map (pair u v :: ·) else none
      | [] => none
    else if isLow u then none
    else (characters? us).map (Char.ofNat u :: ·)

/-- The text up to a closing quote, and what follows the quote. -/
def readText? (cs : List Char) : Option (String × List Char) :=
  (readUnits? cs).bind fun read =>
    (characters? read.1).map fun text => (String.ofList text, read.2)

/-! ## Reading tokens -/

/-- A blank between tokens. -/
def isSpace (c : Char) : Bool :=
  c == ' ' || c == '\n' || c == '\r' || c == '\t'

/-- The numeral at the front, and what follows it. A numeral has no zeros in front. -/
def readNumeral? (cs : List Char) : Option (Nat × List Char) :=
  let read := readNatural cs
  if digits read.1 ++ read.2 = cs then some read else none

/-- The token at the front, and what follows it. -/
def readToken? : List Char → Option (Token × List Char)
  | '[' :: cs => some (.openArray, cs)
  | ']' :: cs => some (.closeArray, cs)
  | '\x7b' :: cs => some (.openObject, cs)
  | '\x7d' :: cs => some (.closeObject, cs)
  | ',' :: cs => some (.comma, cs)
  | ':' :: cs => some (.colon, cs)
  | '"' :: cs => (readText? cs).map fun read => (.text read.1, read.2)
  | 't' :: 'r' :: 'u' :: 'e' :: cs => some (.bool true, cs)
  | 'f' :: 'a' :: 'l' :: 's' :: 'e' :: cs => some (.bool false, cs)
  | 'n' :: 'u' :: 'l' :: 'l' :: cs => some (.null, cs)
  | '-' :: cs => (readNumeral? cs).map fun read => (.number (-(read.1 : Int)), read.2)
  | cs => (readNumeral? cs).map fun read => (.number read.1, read.2)

theorem length_of_map_addUnit {u : Nat} {cs : List Char} {read : List Nat × List Char}
    (ih : ∀ {more}, readUnits? cs = some more → more.2.length < cs.length)
    (h : (readUnits? cs).map (addUnit u) = some read) : read.2.length < cs.length := by
  obtain ⟨more, hmore, rfl⟩ := Option.map_eq_some_iff.1 h
  have hlen : more.2.length < cs.length := ih hmore
  exact hlen

theorem length_readUnits? {cs : List Char} {read : List Nat × List Char}
    (h : readUnits? cs = some read) : read.2.length < cs.length := by
  fun_induction readUnits? cs generalizing read with
  | case1 cs =>
      cases h
      exact Nat.lt_succ_self _
  | case2 a b c d cs ih =>
      obtain ⟨u, -, hmore⟩ := Option.bind_eq_some_iff.1 h
      have hlen := length_of_map_addUnit ih hmore
      simp only [List.length_cons]
      omega
  | case3 c cs _ ih =>
      obtain ⟨d, -, hmore⟩ := Option.bind_eq_some_iff.1 h
      exact (length_of_map_addUnit ih hmore).trans (by simp only [List.length_cons]; omega)
  | case4 => contradiction
  | case5 c cs _ _ _ _ ih => exact (length_of_map_addUnit ih h).trans (Nat.lt_succ_self _)
  | case6 => contradiction

theorem digits_ne_nil (n : Nat) : digits n ≠ [] := by
  rw [digits]
  split <;> simp

theorem length_readNumeral? {cs : List Char} {read : Nat × List Char}
    (h : readNumeral? cs = some read) : read.2.length < cs.length := by
  rw [readNumeral?, Option.ite_none_right_eq_some] at h
  obtain ⟨hcs, hread⟩ := h
  have hpos := List.length_pos_iff.2 (digits_ne_nil (readNatural cs).1)
  rw [← Option.some.inj hread]
  conv_rhs => rw [← hcs]
  rw [List.length_append]
  omega

theorem length_readText? {cs : List Char} {read : String × List Char}
    (h : readText? cs = some read) : read.2.length < cs.length := by
  obtain ⟨units, hunits, h⟩ := Option.bind_eq_some_iff.1 h
  obtain ⟨text, -, rfl⟩ := Option.map_eq_some_iff.1 h
  exact length_readUnits? hunits

theorem length_readToken? {cs : List Char} {read : Token × List Char}
    (h : readToken? cs = some read) : read.2.length < cs.length := by
  unfold readToken? at h
  split at h
  case h_7 cs =>
    obtain ⟨found, hfound, rfl⟩ := Option.map_eq_some_iff.1 h
    exact (length_readText? hfound).trans_le (Nat.le_succ _)
  case h_11 cs =>
    obtain ⟨found, hfound, rfl⟩ := Option.map_eq_some_iff.1 h
    exact (length_readNumeral? hfound).trans_le (Nat.le_succ _)
  case h_12 =>
    obtain ⟨found, hfound, rfl⟩ := Option.map_eq_some_iff.1 h
    exact length_readNumeral? hfound
  all_goals
    cases h
    simp only [List.length_cons]
    omega

/-- The tokens of a text. -/
def tokens? (cs : List Char) : Option (List Token) :=
  match cs with
  | [] => some []
  | c :: cs =>
    if isSpace c then tokens? cs
    else
      match _h : readToken? (c :: cs) with
      | some (t, rest) => (tokens? rest).map (t :: ·)
      | none => none
termination_by cs.length
decreasing_by
  · simp
  · exact length_readToken? ‹_›

theorem tokens?_space {c : Char} (h : isSpace c = true) (cs : List Char) :
    tokens? (c :: cs) = tokens? cs := by
  rw [tokens?, if_pos h]

theorem tokens?_of_readToken? {c : Char} {cs rest : List Char} {t : Token}
    (hspace : isSpace c = false) (h : readToken? (c :: cs) = some (t, rest)) :
    tokens? (c :: cs) = (tokens? rest).map (t :: ·) := by
  rw [tokens?, if_neg (by simp [hspace])]
  split
  · rename_i heq
    cases h.symm.trans heq
    rfl
  · rename_i heq
    cases h.symm.trans heq

/-! ## Spelt tokens -/

/-- No digit follows. -/
def EndsNumber (rest : List Char) : Prop :=
  ∀ c ∈ rest.head?, Untyped.isAsciiDigit c = false

theorem EndsNumber.cons {c : Char} (h : Untyped.isAsciiDigit c = false) (cs : List Char) :
    EndsNumber (c :: cs) := by
  rintro _ ⟨⟩
  exact h

theorem EndsNumber.append {cs rest : List Char} (hcs : EndsNumber cs) (hrest : EndsNumber rest) :
    EndsNumber (cs ++ rest) := by
  cases cs with
  | nil => exact hrest
  | cons c cs => exact hcs

/-- The characters are read as the tokens, whatever follows them. -/
def Spells (cs : List Char) (ts : List Token) : Prop :=
  ∀ rest, EndsNumber rest → tokens? (cs ++ rest) = (tokens? rest).map (ts ++ ·)

/-- A character that is a token by itself. -/
structure IsSign (c : Char) (t : Token) : Prop where
  isSpace_eq : isSpace c = false
  isAsciiDigit_eq : Untyped.isAsciiDigit c = false
  readToken?_eq : ∀ rest, readToken? (c :: rest) = some (t, rest)

namespace Spells

theorem nil : Spells [] [] := by
  intro rest _
  simp

theorem append {cs ds : List Char} {ts us : List Token} (hcs : Spells cs ts) (hds : Spells ds us)
    (hends : EndsNumber ds) : Spells (cs ++ ds) (ts ++ us) := by
  intro rest hrest
  rw [List.append_assoc, hcs _ (hends.append hrest), hds rest hrest, Option.map_map]
  simp [Function.comp_def]

/-- Blanks in front make no difference. -/
theorem blanks_append {cs ds : List Char} {ts : List Token} (hcs : ∀ c ∈ cs, isSpace c = true)
    (hds : Spells ds ts) : Spells (cs ++ ds) ts := by
  induction cs with
  | nil => exact hds
  | cons c cs ih =>
      obtain ⟨hc, hcs⟩ := List.forall_mem_cons.1 hcs
      intro rest hrest
      rw [List.cons_append, List.cons_append, tokens?_space hc]
      exact ih hcs rest hrest

theorem sign_cons {c : Char} {t : Token} (hc : IsSign c t) {ds : List Char} {ts : List Token}
    (hds : Spells ds ts) : Spells (c :: ds) (t :: ts) := by
  intro rest hrest
  rw [List.cons_append, tokens?_of_readToken? hc.isSpace_eq (hc.readToken?_eq _), hds rest hrest,
    Option.map_map]
  rfl

end Spells

/-! ## Strings -/

theorem hexValue?_hexDigit {n : Nat} (h : n < 16) : hexValue? (hexDigit n) = some n := by
  revert n
  decide

/-- An escape of four digits is read as the number that they were written for. -/
theorem unit?_hex {n : Nat} (h : n < 0x10000) {a b c d : Char} (habcd : hex 4 n = [a, b, c, d]) :
    unit? a b c d = some n := by
  have hdigit : ∀ m : Nat, hexValue? (hexDigit (m % 16)) = some (m % 16) :=
    fun m => hexValue?_hexDigit (Nat.mod_lt m (by decide))
  have hfour : hex 4 n = [hexDigit (n / 16 / 16 / 16 % 16), hexDigit (n / 16 / 16 % 16),
      hexDigit (n / 16 % 16), hexDigit (n % 16)] := rfl
  rw [hfour] at habcd
  cases habcd
  simp only [unit?, hdigit]
  show some _ = some n
  congr 1
  omega

theorem readUnits?_plain {c : Char} (hquote : c ≠ '"') (hbackslash : c ≠ '\\')
    (hcontrol : ¬ c.toNat < 0x20) (cs : List Char) :
    readUnits? (c :: cs) = (readUnits? cs).map (addUnit c.toNat) := by
  rw [readUnits?]
  all_goals simp_all

theorem readUnits?_escape (c : Char) (cs : List Char) :
    readUnits? (escape c ++ cs) = (readUnits? cs).map (addUnit c.toNat) := by
  unfold escape
  split
  case h_8 hquote hbackslash _ _ _ _ _ =>
    split
    · rename_i hcontrol
      obtain ⟨a, b, d, e, hdigits⟩ : ∃ a b d e, hex 4 c.toNat = [a, b, d, e] := ⟨_, _, _, _, rfl⟩
      have hunit := unit?_hex (by omega) hdigits
      rw [hdigits]
      simp only [List.cons_append, List.nil_append, readUnits?, hunit, Option.bind_some]
    · rename_i hplain
      exact readUnits?_plain hquote hbackslash hplain cs
  all_goals rfl

theorem readUnits?_flatMap_escape (cs rest : List Char) :
    readUnits? (cs.flatMap escape ++ '"' :: rest) = some (cs.map Char.toNat, rest) := by
  induction cs with
  | nil => rfl
  | cons c cs ih =>
      rw [List.flatMap_cons, List.append_assoc, readUnits?_escape, ih]
      rfl

/-- No character is half of a pair. -/
theorem not_half (c : Char) : isHigh c.toNat = false ∧ isLow c.toNat = false := by
  have hvalid : c.toNat < 0xD800 ∨ 0xDFFF < c.toNat ∧ c.toNat < 0x110000 := c.valid
  simp only [isHigh, isLow, Bool.and_eq_false_iff, decide_eq_false_iff_not]
  omega

theorem characters?_map_toNat (cs : List Char) : characters? (cs.map Char.toNat) = some cs := by
  induction cs with
  | nil => rfl
  | cons c cs ih =>
      obtain ⟨hhigh, hlow⟩ := not_half c
      rw [List.map_cons, characters?.eq_def]
      simp only [hhigh, hlow, Bool.false_eq_true, if_false, ih, Char.ofNat_toNat, Option.map_some]

theorem toList_string (s : String) :
    (string s).toList = '"' :: (s.toList.flatMap escape ++ ['"']) := by
  rw [string, String.toList_ofList]
  rfl

theorem Spells.string (s : String) : Spells (string s).toList [.text s] := by
  intro rest _
  have htext : readText? (s.toList.flatMap escape ++ '"' :: rest) = some (s, rest) := by
    rw [readText?, readUnits?_flatMap_escape, Option.bind_some, characters?_map_toNat,
      Option.map_some, String.ofList_toList]
  have htoken : readToken? ('"' :: (s.toList.flatMap escape ++ '"' :: rest)) =
      some (.text s, rest) := by
    rw [readToken?, htext]
    rfl
  rw [toList_string, List.cons_append, List.append_assoc, List.singleton_append]
  exact tokens?_of_readToken? (by decide) htoken

/-! ## Numbers -/

theorem readNatural_natural_append_of_ends (n : Nat) {rest : List Char} (h : EndsNumber rest) :
    readNatural ((natural n).toList ++ rest) = (n, rest) := by
  cases rest with
  | nil =>
      have hdigits : ∀ d ∈ digits n, Untyped.isAsciiDigit d = true :=
        fun d hd => isAsciiDigit_of_mem_digits hd
      rw [natural, String.toList_ofList, readNatural, List.takeWhile_append_of_pos hdigits,
        List.dropWhile_append_of_pos hdigits, List.takeWhile_nil, List.append_nil,
        digitsValue_digits]
      rfl
  | cons c rest => exact readNatural_natural_append n (h c rfl) rest

theorem readNumeral?_natural_append (n : Nat) {rest : List Char} (h : EndsNumber rest) :
    readNumeral? ((natural n).toList ++ rest) = some (n, rest) := by
  rw [readNumeral?, readNatural_natural_append_of_ends n h, natural, String.toList_ofList,
    if_pos rfl]

/-- A digit starts nothing but a number. -/
theorem readToken?_digit {c : Char} (h : Untyped.isAsciiDigit c = true) (cs : List Char) :
    readToken? (c :: cs) =
      (readNumeral? (c :: cs)).map fun read => (.number read.1, read.2) := by
  unfold readToken?
  split
  case h_12 => rfl
  all_goals
    rename_i heq
    cases heq
    exact absurd h (by decide)

theorem isSpace_of_isAsciiDigit {c : Char} (h : Untyped.isAsciiDigit c = true) :
    isSpace c = false := by
  by_contra hspace
  simp only [isSpace, Bool.not_eq_false, Bool.or_eq_true, beq_iff_eq, or_assoc] at hspace
  rcases hspace with rfl | rfl | rfl | rfl <;> exact absurd h (by decide)

theorem Spells.natural (n : Nat) : Spells (natural n).toList [.number n] := by
  intro rest hrest
  obtain ⟨c, cs, hcons⟩ := List.exists_cons_of_ne_nil (digits_ne_nil n)
  have hdigit : Untyped.isAsciiDigit c = true :=
    isAsciiDigit_of_mem_digits (n := n) (by rw [hcons]; exact List.mem_cons_self ..)
  have hlist : (Text.natural n).toList = c :: cs := by
    rw [Text.natural, String.toList_ofList, hcons]
  have hread := readNumeral?_natural_append n hrest
  rw [hlist, List.cons_append] at hread ⊢
  refine tokens?_of_readToken? (isSpace_of_isAsciiDigit hdigit) ?_
  rw [readToken?_digit hdigit, hread, Option.map_some]

end UsingStyle.Json
