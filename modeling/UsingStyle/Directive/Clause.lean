import UsingStyle.Token

/-! # The grammar of a directive

A directive is a run of meaningful tokens

    [global] using [static] (Alias = Target | Name) ;

where a target is any non-empty run of tokens without braces and semicolons, and a name is an
identifier followed by segments (`.` or `::` and an identifier) and type argument lists (`<…>`,
balanced and without braces and semicolons). `Clause.parse?` reads the tokens from left to right and
never goes back: `static` right behind `using` is always the modifier, and an identifier before `=`
is always the alias.
-/

namespace UsingStyle

/-- The parts of a directive, as counts of tokens. -/
structure Clause where
  aliasName : Option String
  /-- How many tokens precede the name or target. -/
  nameStart : Nat
  /-- How many tokens the directive has, its semicolon included. -/
  length : Nat
  deriving DecidableEq, Repr

namespace Clause

/-- Braces and semicolons end whatever is being read. -/
def breaksScope (t : Token) : Bool :=
  t.text == "\x7b" || t.text == "\x7d" || t.text == ";"

/-- The separators between the segments of a name. -/
def separatesSegments (t : Token) : Bool :=
  t.text == "." || t.text == "::"

/-- Whether the first token is an identifier. -/
def startsWithIdentifier : List Token → Bool
  | t :: _ => t.kind == .identifier
  | [] => false

/-- Whether the first token is written `text`. -/
def startsWithText (text : String) : List Token → Bool
  | t :: _ => t.text == text
  | [] => false

/-- Whether a directive can start here: with `using`, or with `global` before `using`. -/
def startsDirective : List Token → Bool
  | t :: ts => t.isIdentifier "using" || (t.isIdentifier "global" && startsWithText "using" ts)
  | [] => false

/-- How many tokens it takes to close `depth` open type argument lists, if they are closed before
a brace or semicolon. -/
def typeArgumentsRest : (depth : Nat) → List Token → Option Nat
  | _, [] => none
  | depth, t :: ts =>
    if t.text == "<" then (typeArgumentsRest (depth + 1) ts).map (· + 1)
    else if t.text == ">" then
      if depth ≤ 1 then some 1 else (typeArgumentsRest (depth - 1) ts).map (· + 1)
    else if breaksScope t then none
    else (typeArgumentsRest depth ts).map (· + 1)

/-- How many tokens continue a name behind its first identifier; none if a type argument list is
not closed. -/
def nameRest (ts : List Token) : Option Nat :=
  match ts with
  | [] => some 0
  | t :: ts =>
    if t.text == "<" then
      match typeArgumentsRest 1 ts with
      | none => none
      | some n => (nameRest (ts.drop n)).map (· + (n + 1))
    else if separatesSegments t && startsWithIdentifier ts then
      (nameRest (ts.drop 1)).map (· + 2)
    else some 0
termination_by ts.length
decreasing_by all_goals (simp only [List.length_drop, List.length_cons]; omega)

/-- How many tokens at the front form a qualified name. -/
def nameLength (ts : List Token) : Option Nat :=
  if startsWithIdentifier ts then (nameRest (ts.drop 1)).map (· + 1) else none

/-- How many tokens at the front form the target of an alias. -/
def targetLength (ts : List Token) : Option Nat :=
  match (ts.takeWhile fun t => !breaksScope t).length with
  | 0 => none
  | n + 1 => some (n + 1)

/-- The alias in front of a target, if the tokens start with an identifier and `=`. -/
def aliasOf : List Token → Option String
  | t :: u :: _ => if t.kind == .identifier && u.text == "=" then some t.text else none
  | _ => none

/-- How many tokens the words in front of the alias or name take. -/
def modifiersLength (ts : List Token) : Nat :=
  let words := if startsWithText "global" ts then 2 else 1
  if startsWithText "static" (ts.drop words) then words + 1 else words

/-- The clause whose name or target has `size` tokens behind the first `nameStart`, if a semicolon
follows it. -/
def close? (ts : List Token) (aliasName : Option String) (nameStart size : Nat) : Option Clause :=
  if startsWithText ";" (ts.drop (nameStart + size)) then
    some ⟨aliasName, nameStart, nameStart + size + 1⟩
  else none

/-- The directive at the front of the tokens, at a place where one can start. -/
def parse? (ts : List Token) : Option Clause :=
  let modifiers := modifiersLength ts
  match aliasOf (ts.drop modifiers) with
  | some a => (targetLength (ts.drop (modifiers + 2))).bind (close? ts (some a) (modifiers + 2))
  | none => (nameLength (ts.drop modifiers)).bind (close? ts none modifiers)

theorem length_pos_of_close? {ts : List Token} {aliasName : Option String} {nameStart size : Nat}
    {c : Clause} (h : close? ts aliasName nameStart size = some c) : 0 < c.length := by
  unfold close? at h
  split at h
  · cases h
    exact Nat.succ_pos _
  · contradiction

/-- A directive has at least one token. -/
theorem length_pos_of_parse? {ts : List Token} {c : Clause} (h : parse? ts = some c) :
    0 < c.length := by
  unfold parse? at h
  dsimp only at h
  split at h
  · obtain ⟨n, _, hc⟩ := Option.bind_eq_some_iff.1 h
    exact length_pos_of_close? hc
  · obtain ⟨n, _, hc⟩ := Option.bind_eq_some_iff.1 h
    exact length_pos_of_close? hc

end Clause
end UsingStyle
