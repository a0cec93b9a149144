/-! # Sets of characters in patterns

A set in brackets lists characters and ranges; `!` in front takes all other characters instead. A
hyphen makes a range when it has a character of its own on either side. A range whose ends are in
the wrong order is empty: it vanishes with its two ends, and the rest of the set is read as if it
had never been there.
-/

namespace UsingStyle.Pattern

/-- A set of characters as closed ranges, or everything outside them. -/
structure CharSet where
  negated : Bool
  ranges : List (Char × Char)
  deriving DecidableEq, Repr

namespace CharSet

/-- Whether the set holds a character. -/
def holds (s : CharSet) (c : Char) : Bool :=
  (s.ranges.any fun r => r.1 ≤ c && c ≤ r.2) != s.negated

/-- Cuts the set at its range hyphens. The first `skip` characters of the current chunk, which is
kept in reverse, are no range hyphens; nor are the first two of every later chunk. -/
def chunks : (skip : Nat) → (chunk : List Char) → List Char → List (List Char)
  | _, chunk, [] => [chunk.reverse]
  | 0, chunk, c :: cs =>
    if c == '-' then chunk.reverse :: chunks 2 [] cs else chunks 0 (c :: chunk) cs
  | skip + 1, chunk, c :: cs => chunks skip (c :: chunk) cs

/-- A hyphen at the end of the set is a character of the last chunk. -/
def closeHyphen : List (List Char) → List (List Char)
  | [] => []
  | [chunk, []] => [chunk ++ ['-']]
  | chunk :: rest => chunk :: closeHyphen rest

/-- Joins two chunks whose ends form a range in the wrong order, without those ends. -/
def dropEmptyRange (chunk : List Char) : List (List Char) → List (List Char)
  | [] => [chunk]
  | next :: rest =>
    match chunk.getLast?, next with
    | some hi, lo :: tail =>
      if lo < hi then (chunk.dropLast ++ tail) :: rest else chunk :: next :: rest
    | _, _ => chunk :: next :: rest

/-- The ranges of a chunk and of those behind it: the last character of a chunk and the first of the
next are the ends of a range, and every other character stands for itself. -/
def rangesOf : List Char → List (List Char) → List (Char × Char)
  | [], [] => []
  | [], next :: rest => rangesOf next rest
  | [lo], (hi :: next) :: rest => (lo, hi) :: rangesOf next rest
  | c :: cs, rest => (c, c) :: rangesOf cs rest
termination_by chunk rest => chunk.length + rest.flatten.length + rest.length

/-- The set that the text between the brackets spells. A hyphen that has nothing but the leading `!`
on its left stands for itself. -/
def ofText (cs : List Char) : CharSet :=
  let skip := if cs.head? == some '!' then 2 else 1
  match (closeHyphen (chunks skip [] cs)).foldr dropEmptyRange [] with
  | ['!'] :: next :: rest => ⟨true, ('-', '-') :: rangesOf next rest⟩
  | ('!' :: chunk) :: rest => ⟨true, rangesOf chunk rest⟩
  | chunk :: rest => ⟨false, rangesOf chunk rest⟩
  | [] => ⟨false, []⟩

end CharSet
end UsingStyle.Pattern
