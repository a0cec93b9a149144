/-! # References in settings files

A value in a settings file may refer to variables: `$` and a name in braces stand for the value of
the variable, and `:-` behind the name sets off what they stand for when there is none. Whatever is
not written like this stands for itself.
-/

namespace UsingStyle.EnvFile

/-- A reference to a variable, with what it stands for when there is none. -/
structure Reference where
  name : String
  default : String
  deriving DecidableEq, Repr

/-- Whether a character ends the name of a variable. -/
def endsName (c : Char) : Bool :=
  c == ':' || c == '\x7d'

/-- How many characters stand before the closing brace. -/
def braceIndex? (cs : List Char) : Option Nat :=
  let front := cs.takeWhile (· != '\x7d')
  if front.length < cs.length then some front.length else none

/-- The reference behind `$` and an opening brace, and how many characters it has there, its closing
brace included. -/
def reference? (cs : List Char) : Option (Reference × Nat) :=
  let name := cs.takeWhile fun c => !endsName c
  match cs.drop name.length with
  | '\x7d' :: _ => some (⟨String.ofList name, ""⟩, name.length + 1)
  | ':' :: '-' :: rest =>
    (braceIndex? rest).map fun n =>
      (⟨String.ofList name, String.ofList (rest.take n)⟩, name.length + n + 3)
  | _ => none

/-- The text with every reference replaced by what `value` gives for it. -/
def expand (value : Reference → String) (cs : List Char) : List Char :=
  match cs with
  | [] => []
  | '$' :: '\x7b' :: cs =>
    match reference? cs with
    | some (r, n) => (value r).toList ++ expand value (cs.drop n)
    | none => '$' :: expand value ('\x7b' :: cs)
  | c :: cs => c :: expand value cs
termination_by cs.length
decreasing_by all_goals (simp only [List.length_drop, List.length_cons]; omega)

end UsingStyle.EnvFile
