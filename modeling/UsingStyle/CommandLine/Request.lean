import UsingStyle.CommandLine.Argument
import UsingStyle.CommandLine.Integer
import UsingStyle.SortKey

/-! # Requests

What the arguments ask for. Flags act from left to right: help and version end the reading at once,
and a flag that is given again replaces its earlier value. Words that no flag takes, and flags that
do not exist, are reported at the end, behind missing ones.
-/

namespace UsingStyle.CommandLine

/-- How reports are printed. -/
inductive Format where
  | text
  | json
  deriving DecidableEq, Repr

/-- The word for a format. -/
def Format.word : Format → String
  | text => "text"
  | json => "json"

/-- What was given for a flag that takes one value. -/
inductive Given (α : Type) where
  /-- The flag was not given. -/
  | nothing
  /-- The flag was given, but its value was dropped. -/
  | noValue
  /-- The flag was given with a value. -/
  | value (a : α)
  deriving DecidableEq, Repr

/-- The flags of an inspection. -/
structure Request where
  inputs : Option (List String)
  excludes : List String
  verbose : Bool
  format : Format
  sortKey : Given SortKey
  workers : Given Int
  deriving DecidableEq, Repr

/-- The request before any flag. -/
def Request.empty : Request := ⟨none, [], false, .text, .nothing, .nothing⟩

/-- What the command line asks for. -/
inductive Command where
  | help
  | version
  | run (request : Request)
  deriving DecidableEq, Repr

/-! ## One flag -/

/-- A flag with its values. -/
structure Use where
  flag : Flag
  values : List String
  deriving DecidableEq, Repr

/-- Flags with their values, and how many of the following words the flags take. -/
structure Uses where
  uses : List Use
  taken : Nat
  deriving DecidableEq, Repr

/-- The words at the front of the arguments. -/
def leadingWords : List Argument → List String
  | .word s :: args => s :: leadingWords args
  | _ => []

/-- A flag without attached value, and the words behind it. -/
def usesOf (f : Flag) (words : List String) : Except UsageError Uses :=
  match f.arity, words with
  | .none, _ => .ok ⟨[⟨f, []⟩], 0⟩
  | .one, w :: _ => .ok ⟨[⟨f, [w]⟩], 1⟩
  | .many, w :: ws => .ok ⟨[⟨f, w :: ws⟩], ws.length + 1⟩
  | _, [] => .error (.valueMissing f)

/-- A flag with an attached value, and the words behind it. Short flags without values may share
one dash with the next short flag. A value that looks like the separator is dropped.

The last rule, and that nothing but a flag may stand behind a short flag without values, are those
of the argument parser of the runtime 3.11 before release 3.11.10. That release and 3.12.3 keep the
value, and take what stands behind the short flag for a flag that does not exist. -/
def usesOfAttached (f : Flag) (short : Bool) (value : List Char) (words : List String) :
    Except UsageError Uses :=
  match f.arity, value with
  | .none, c :: cs =>
    match short, Flag.ofSpelling? (String.ofList ['-', c]) with
    | true, some g => do
      let rest ← if cs.isEmpty then usesOf g words else usesOfAttached g true cs words
      return { rest with uses := ⟨f, []⟩ :: rest.uses }
    | _, _ => .error (.valueIgnored f (String.ofList (c :: cs)))
  | .none, [] => .error (.valueIgnored f "")
  | _, value =>
    .ok ⟨[⟨f, if value == ['-', '-'] then [] else [String.ofList value]⟩], 0⟩
termination_by value.length

/-- What was given for a flag that takes one value, each value read by `read`. -/
def Use.given {α : Type} (u : Use) (read : String → Except UsageError α) :
    Except UsageError (Given α) :=
  match u.values with
  | [] => .ok .noValue
  | s :: _ => (read s).map .value

/-- The choice that a value names. -/
def choice {α : Type} (f : Flag) (word : α → String) (choices : List α) (s : String) :
    Except UsageError α :=
  match choices.find? fun a => word a == s with
  | some a => .ok a
  | none => .error (.invalidChoice f s (choices.map word))

/-- The integer that a value spells. -/
def integerValue (f : Flag) (s : String) : Except UsageError Int :=
  match integer? s with
  | some n => .ok n
  | none => .error (.invalidInteger f s)

/-- The format that was given; without a value it is plain text. -/
def Given.format : Given Format → Format
  | .value format => format
  | .nothing | .noValue => .text

/-- The effect of a flag on the request; help and version end the reading. -/
def act (r : Request) (u : Use) : Except UsageError (Command ⊕ Request) :=
  match u.flag with
  | .help => .ok (.inl .help)
  | .version => .ok (.inl .version)
  | .inputs => .ok (.inr { r with inputs := some u.values })
  | .excludes => .ok (.inr { r with excludes := u.values })
  | .verbose => .ok (.inr { r with verbose := true })
  | .format => do
    let format ← u.given (choice u.flag Format.word [.text, .json])
    return .inr { r with format := format.format }
  | .sortKey => do
    let key ← u.given (choice u.flag SortKey.word [.name, .aliasName])
    return .inr { r with sortKey := key }
  | .workers => do
    let workers ← u.given (integerValue u.flag)
    return .inr { r with workers := workers }

/-- The effects of several flags. -/
def actAll (r : Request) : List Use → Except UsageError (Command ⊕ Request)
  | [] => .ok (.inr r)
  | u :: us => do
    match ← act r u with
    | .inl command => return .inl command
    | .inr r => actAll r us

/-! ## All arguments -/

/-- The request behind all arguments, if nothing is missing and nothing is left over. -/
def conclude (r : Request) (extras : List String) : Except UsageError Command :=
  if r.inputs.isNone then .error (.required [.inputs])
  else if extras.isEmpty then .ok (.run r)
  else .error (.unrecognized extras)

/-- Reads arguments behind a request and leftover arguments. -/
def parseFrom (r : Request) (extras : List String) (args : List Argument) :
    Except UsageError Command :=
  match args with
  | [] => conclude r extras
  | .flag f short attached :: args => do
    let words := leadingWords args
    let found ←
      match attached with
      | none => usesOf f words
      | some value => usesOfAttached f short value words
    match ← actAll r found.uses with
    | .inl command => return command
    | .inr r => parseFrom r extras (args.drop found.taken)
  | a :: args => parseFrom r (extras ++ a.text?.toList) args
termination_by args.length
decreasing_by all_goals (simp only [List.length_drop, List.length_cons]; omega)

/-- What a command line asks for. -/
def parse (arguments : List String) : Except UsageError Command := do
  parseFrom .empty [] (← Argument.listOfTexts arguments)

end UsingStyle.CommandLine
