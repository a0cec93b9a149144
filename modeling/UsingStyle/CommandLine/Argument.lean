import UsingStyle.CommandLine.Usage
import UsingStyle.Text.Word

/-! # Arguments

Before any flag acts, every argument is told to be a word or a flag. A flag may be shortened as long
as it stays clear which one is meant, and may have a value attached: behind `=`, or right behind a
short spelling. A single dash, a negative number, an unknown flag with a space in it and everything
behind `--` are words.
-/

namespace UsingStyle.CommandLine

/-- What an argument is. -/
inductive Argument where
  /-- A word: a value of the flag before it, or nobody's. -/
  | word (text : String)
  /-- The mark behind which there are only words. -/
  | separator
  /-- A flag. -/
  | flag (flag : Flag) (short : Bool) (attached : Option (List Char))
  /-- A flag that does not exist. -/
  | unknown (text : String)
  deriving DecidableEq, Repr

namespace Argument

/-- The argument as it was given, unless it is a flag. -/
def text? : Argument → Option String
  | word s | unknown s => some s
  | separator => some "--"
  | flag _ _ _ => none

/-- Whether a spelling has a single dash. -/
def isShort (spelling : String) : Bool :=
  spelling.toList.drop 1 |>.head? |>.all (· != '-')

/-- The parts before and behind the first `=`. -/
def splitEquals (cs : List Char) : List Char × Option (List Char) :=
  match cs.takeWhile (· != '='), cs.dropWhile (· != '=') with
  | front, _ :: value => (front, some value)
  | front, [] => (front, none)

/-- The spellings that a flag with two dashes may be short for. -/
def longCandidates (cs : List Char) : List (String × Flag × Option (List Char)) :=
  let (front, attached) := splitEquals cs
  (Flag.table.filter fun e => front.isPrefixOf e.1.toList).map fun e => (e.1, e.2, attached)

/-- The spellings that a flag with one dash may stand for. -/
def shortCandidates (cs : List Char) : List (String × Flag × Option (List Char)) :=
  Flag.table.filterMap fun e =>
    if e.1.toList == cs.take 2 then some (e.1, e.2, some (cs.drop 2))
    else if cs.isPrefixOf e.1.toList then some (e.1, e.2, none)
    else none

/-- The spellings that a text with a dash in front may stand for. -/
def candidates (cs : List Char) : List (String × Flag × Option (List Char)) :=
  if (cs.drop 1).head? == some '-' then longCandidates cs else shortCandidates cs

/-- Whether a text is a negative number. A line feed may end it. -/
def isNegativeNumber (cs : List Char) : Bool :=
  match cs with
  | '-' :: cs =>
    let cs := if cs.getLast? == some '\n' then cs.dropLast else cs
    match cs.takeWhile Text.isDigit, cs.dropWhile Text.isDigit with
    | _ :: _, [] => true
    | _, '.' :: fraction => !fraction.isEmpty && fraction.all Text.isDigit
    | _, _ => false
  | _ => false

/-- What a text that stands for no spelling is. -/
def ofUnknown (s : String) : Argument :=
  if isNegativeNumber s.toList || s.toList.contains ' ' then word s else unknown s

/-- What a text that starts with a dash and is longer than it is. -/
def ofDashed (s : String) : Except UsageError Argument :=
  let (front, attached) := splitEquals s.toList
  match Flag.ofSpelling? s, attached, Flag.ofSpelling? (String.ofList front) with
  | some f, _, _ => .ok (flag f (isShort s) none)
  | none, some a, some f => .ok (flag f (isShort s) (some a))
  | none, _, _ =>
    match candidates s.toList with
    | [] => .ok (ofUnknown s)
    | [(spelling, f, attached)] => .ok (flag f (isShort spelling) attached)
    | several => .error (.ambiguous s (several.map Prod.fst))

/-- What a single argument is. -/
def ofText (s : String) : Except UsageError Argument :=
  match s.toList with
  | '-' :: _ :: _ => ofDashed s
  | _ => .ok (word s)

/-- What the arguments are. -/
def listOfTexts : List String → Except UsageError (List Argument)
  | [] => .ok []
  | s :: ss =>
    if s = "--" then .ok (separator :: ss.map word)
    else do
      let a ← ofText s
      let rest ← listOfTexts ss
      return a :: rest

end Argument
end UsingStyle.CommandLine
