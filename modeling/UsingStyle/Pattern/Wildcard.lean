import UsingStyle.Pattern.CharSet

/-! # Wildcards

Within one name, `*` stands for any characters, `?` for one, and a set in brackets for one of its
own. Every other character stands for itself, and so does an opening bracket without a closing one.
-/

namespace UsingStyle.Pattern

/-- A piece of a name pattern. -/
inductive Wildcard where
  | char (c : Char)
  | any
  | star
  | set (s : CharSet)
  deriving DecidableEq, Repr

/-- How many characters stand between an opening bracket and the closing one. A closing bracket
right behind the opening one, or behind its `!`, belongs to the set. -/
def setLength? (cs : List Char) : Option Nat :=
  let bang := if cs.head? == some '!' then 1 else 0
  let start := if (cs.drop bang).head? == some ']' then bang + 1 else bang
  let length := start + ((cs.drop start).takeWhile (· != ']')).length
  if length < cs.length then some length else none

namespace Wildcard

/-- The pattern that a text spells. -/
def ofText (cs : List Char) : List Wildcard :=
  match cs with
  | [] => []
  | '*' :: cs => star :: ofText cs
  | '?' :: cs => any :: ofText cs
  | '[' :: cs =>
    match setLength? cs with
    | some n => set (CharSet.ofText (cs.take n)) :: ofText (cs.drop (n + 1))
    | none => char '[' :: ofText cs
  | c :: cs => char c :: ofText cs
termination_by cs.length
decreasing_by all_goals (simp only [List.length_drop, List.length_cons]; omega)

/-- The text and everything that is left of it when characters are taken from its front. -/
def suffixes : List Char → List (List Char)
  | [] => [[]]
  | c :: cs => (c :: cs) :: suffixes cs

/-- Whether the pattern covers the whole text. -/
def accepts : List Wildcard → List Char → Bool
  | [], cs => cs.isEmpty
  | char p :: ps, c :: cs => p == c && accepts ps cs
  | any :: ps, _ :: cs => accepts ps cs
  | set s :: ps, c :: cs => s.holds c && accepts ps cs
  | star :: ps, cs => (suffixes cs).any (accepts ps)
  | _, [] => false

end Wildcard
end UsingStyle.Pattern
