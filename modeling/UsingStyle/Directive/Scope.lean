import UsingStyle.Directive.Clause

/-! # Scopes

Directives stand at compilation-unit or namespace level; the same words inside any other braces are
a statement. A brace belongs to a namespace when the word `namespace` occurred since the previous
brace or semicolon.
-/

namespace UsingStyle

/-- The open braces, innermost first, each with whether it belongs to a namespace, and whether the
word `namespace` waits for its brace. -/
structure Scope where
  braces : List Bool
  pending : Bool
  deriving DecidableEq, Repr

namespace Scope

/-- The scope at the start of a source. -/
def top : Scope := ⟨[], false⟩

/-- Whether every open brace belongs to a namespace. -/
def admitsDirective (s : Scope) : Bool :=
  s.braces.all id

/-- The scope after a token. A closing brace without an open one closes nothing. -/
def step (s : Scope) (t : Token) : Scope :=
  if t.isIdentifier "namespace" then ⟨s.braces, true⟩
  else if t.text == "\x7b" then ⟨s.pending :: s.braces, false⟩
  else if t.text == "\x7d" then ⟨s.braces.tail, false⟩
  else if t.text == ";" then ⟨s.braces, false⟩
  else s

end Scope

/-- A directive found among the meaningful tokens: the index of its first token, and its parts. -/
structure Occurrence where
  index : Nat
  clause : Clause
  deriving DecidableEq, Repr

/-- The directive at the front of the tokens, if one may stand there. -/
def directiveAt? (s : Scope) (ts : List Token) : Option Clause :=
  if s.admitsDirective && Clause.startsDirective ts then Clause.parse? ts else none

theorem length_pos_of_directiveAt? {s : Scope} {ts : List Token} {c : Clause}
    (h : directiveAt? s ts = some c) : 0 < c.length := by
  unfold directiveAt? at h
  split at h
  · exact Clause.length_pos_of_parse? h
  · contradiction

/-- The directives among the meaningful tokens `ts`, the first of which has the given index. The
tokens of a directive do not change the scope. -/
def occurrencesFrom (s : Scope) (index : Nat) (ts : List Token) : List Occurrence :=
  match ts with
  | [] => []
  | t :: ts =>
    match h : directiveAt? s (t :: ts) with
    | some c => ⟨index, c⟩ :: occurrencesFrom s (index + c.length) ((t :: ts).drop c.length)
    | none => occurrencesFrom (s.step t) (index + 1) ts
termination_by ts.length
decreasing_by
  · have := length_pos_of_directiveAt? h
    simp only [List.length_drop, List.length_cons]
    omega
  · simp

/-- The directives among the meaningful tokens of a source. -/
def occurrences (ts : List Token) : List Occurrence :=
  occurrencesFrom .top 0 ts

end UsingStyle
