import UsingStyle.Proofs.Token.Openers
import UsingStyle.Proofs.Token.Restart
import UsingStyle.Proofs.Token.Scanner

/-! # Lexemes by one scan

The first lexeme of a text is found without backtracking. The lengths of the leading runs of `$` and
`"` and the first three characters decide what it is, and one scan behind the opening finds where it
ends. This is what the pattern of lexemes matches first.
-/

namespace UsingStyle.Lexeme

/-! ## Openings -/

/-- What decides an opening: the lengths of the leading run of `$` and of the run of `"` behind it,
and at most three characters. -/
structure Front where
  dollars : Nat
  quotes : Nat
  first : List Char
  length_first_le : first.length ≤ 3

namespace Front

/-- The front of a text. -/
def ofText (cs : List Char) : Front where
  dollars := run (· == '$') cs
  quotes := run (· == '"') (cs.drop (run (· == '$') cs))
  first := cs.take 3
  length_first_le := List.length_take_le 3 cs

/-- The opening that a front decides. -/
def opening (f : Front) : Opening :=
  if 3 ≤ f.quotes then .rawString (f.dollars + f.quotes) else .ofFront f.first

end Front

theorem Opening.ofFront_take (cs : List Char) : ofFront (cs.take 3) = ofFront cs := by
  match cs with
  | [] | [_] | [_, _] => rfl
  | c :: d :: e :: cs => exact ofFront_congr fun _ => rfl

theorem opening_front (cs : List Char) :
    (Front.ofText cs).opening = Opening.ofText false cs := by
  rw [Opening.ofText_false, ← Opening.ofFront_take cs]
  rfl

/-! ## The scan for the first lexeme -/

/-- What the scan finds at a place of a text: the alternative, and the place where the lexeme
ends. -/
def scanAt? (text : String) (place : Nat) : Option (Group × Nat) :=
  match text.toList.drop place with
  | [] => none
  | c :: cs =>
    let o := (Front.ofText (c :: cs)).opening
    o.group?.map fun g => (g, place + (o.lead + scanRest o ((c :: cs).drop o.lead)))

/-- What the pattern matches first at a place of a text: the alternative, and the place where the
match ends. -/
def matchAt? (text : String) (place : Nat) : Option (Group × Nat) :=
  (firstMatch? (text.toList.drop place)).map fun m => (m.1, text.length - m.2.length)

theorem scanAt?_of_cons {text : String} {place : Nat} {c : Char} {cs : List Char}
    (h : text.toList.drop place = c :: cs) :
    scanAt? text place = (Opening.ofText false (c :: cs)).group?.map fun g =>
      (g, place + length (Opening.ofText false (c :: cs)) (c :: cs)) := by
  rw [scanAt?, h]
  simp only [opening_front, scanRest_eq]
  rfl

theorem matchAt?_of_cons {text : String} {place : Nat} {c : Char} {cs : List Char}
    (h : text.toList.drop place = c :: cs) :
    ∃ g, (Opening.ofText false (c :: cs)).group? = some g ∧
      matchAt? text place =
        some (g, place + length (Opening.ofText false (c :: cs)) (c :: cs)) := by
  obtain ⟨g, hg, hmatch⟩ := firstMatch?_cons c cs
  refine ⟨g, hg, ?_⟩
  have hlen := length_le false (c :: cs)
  have hdrop : (c :: cs).length = text.length - place := by
    rw [← h, List.length_drop, String.length_toList]
  have hend : text.length -
      ((c :: cs).drop (length (Opening.ofText false (c :: cs)) (c :: cs))).length =
        place + length (Opening.ofText false (c :: cs)) (c :: cs) := by
    rw [List.length_drop]
    have hpos : 0 < (c :: cs).length := Nat.succ_pos _
    omega
  rw [matchAt?, h, hmatch, Option.map_some, hend]

/-- The first match of the pattern is what the scan finds, at every place of every text: a lexeme
wherever a character is left, and nothing at the end of the text. The opener of an alternative
decides alone whether the alternative matches, since all bodies match behind every text. -/
theorem matchAt?_eq_scanAt? (text : String) (place : Nat) :
    matchAt? text place = scanAt? text place ∧
      (if place < text.length then
        ∃ g, (Opening.ofText false (text.toList.drop place)).group? = some g ∧
          matchAt? text place =
            some (g, place + length (Opening.ofText false (text.toList.drop place))
              (text.toList.drop place))
      else matchAt? text place = none) ∧
        ∀ g : Group, g.body.IsTotal := by
  cases h : text.toList.drop place with
  | nil =>
      have hplace : ¬ place < text.length := by
        rw [Nat.not_lt, ← String.length_toList]
        exact List.drop_eq_nil_iff.1 h
      have hnone : matchAt? text place = none := by
        rw [matchAt?, h, firstMatch?_nil, Option.map_none]
      rw [if_neg hplace, scanAt?, h]
      exact ⟨hnone, hnone, isTotal_body⟩
  | cons c cs =>
      have hplace : place < text.length := by
        rw [← String.length_toList]
        refine Nat.not_le.1 fun hle => List.cons_ne_nil c cs ?_
        rw [← h, List.drop_eq_nil_of_le hle]
      obtain ⟨g, hg, hmatch⟩ := matchAt?_of_cons h
      rw [if_pos hplace, scanAt?_of_cons h, hg]
      exact ⟨hmatch, ⟨g, rfl, hmatch⟩, isTotal_body⟩

end UsingStyle.Lexeme
