import UsingStyle.Settings.Reference
import UsingStyle.Text.Blank
import UsingStyle.Text.ByteOrderMark

/-! # Settings files

A settings file holds one assignment `NAME=value` on a line, perhaps behind the word `export`. A
value may stand in single or double quotes, and then it may run over several lines; otherwise it
ends at the end of its line or before a comment that a blank sets off. A name without `=` has no
value. A statement that cannot be read is skipped up to the end of its line, and the line where it
starts is kept. Line feeds end lines.
-/

namespace UsingStyle

/-- A name and its value, if it has one. -/
abbrev EnvFile.Binding := String × Option String

/-- What a settings file holds. -/
structure EnvFile where
  /-- The assignments, in order. -/
  bindings : List EnvFile.Binding
  /-- The lines, counted from one, on which statements start that cannot be read. -/
  unreadable : List Nat
  deriving DecidableEq, Repr

namespace EnvFile

open Text

/-! ## Values -/

/-- How many characters stand in front of the closing quote: the first that no backslash escapes,
or else the last. A backslash escapes the character behind it. `escaped` says that the text starts
with such a character. -/
def quotedLength? (quote : Char) : (escaped : Bool) → List Char → Option Nat
  | _, [] => none
  | escaped, c :: cs =>
    if c == quote && !escaped then some 0
    else
      match quotedLength? quote (c == '\\' && !escaped) cs with
      | some n => some (n + 1)
      | none => if c == quote then some 0 else none

/-- The character that an escape in double quotes stands for. -/
def unescape? (c : Char) : Option Char :=
  match c with
  | '\\' => some '\\'
  | '\'' => some '\''
  | '"' => some '"'
  | 'a' => some '\x07'
  | 'b' => some '\x08'
  | 'f' => some '\x0c'
  | 'n' => some '\n'
  | 'r' => some '\r'
  | 't' => some '\t'
  | 'v' => some '\x0b'
  | _ => none

/-- The character that an escape in single quotes stands for. -/
def unescapeSingle? (c : Char) : Option Char :=
  if c == '\\' || c == '\'' then some c else none

/-- The text with its escapes replaced. -/
def replaceEscapes (escape? : Char → Option Char) : List Char → List Char
  | '\\' :: c :: cs =>
    match escape? c with
    | some d => d :: replaceEscapes escape? cs
    | none => '\\' :: replaceEscapes escape? (c :: cs)
  | c :: cs => c :: replaceEscapes escape? cs
  | [] => []

/-- A quoted text at the front, and what follows it. -/
def quoted? (quote : Char) (cs : List Char) : Option (List Char × List Char) :=
  (quotedLength? quote false cs).map fun n => (cs.take n, cs.drop (n + 1))

/-- The line up to blanks and `#`. -/
def dropComment : List Char → List Char
  | [] => []
  | c :: cs =>
    if isBlank c && (cs.dropWhile isBlank).head? == some '#' then [] else c :: dropComment cs

/-- The text behind the blanks of the line. -/
def skipBlanks (cs : List Char) : List Char :=
  cs.dropWhile isInlineBlank

/-- The text behind the line. -/
def skipLine (cs : List Char) : List Char :=
  (cs.dropWhile (· != '\n')).drop 1

/-- A value without quotes, and what follows it. -/
def unquoted (cs : List Char) : List Char × List Char :=
  let line := cs.takeWhile (· != '\n')
  ((trimEnd (String.ofList (dropComment line))).toList, cs.drop line.length)

/-- The value behind `=`, and what follows it. A `#` that a blank sets off starts a comment, so that
the value is empty. -/
def value? (cs : List Char) : Option (List Char × List Char) :=
  match skipBlanks cs with
  | '\'' :: rest =>
    (quoted? '\'' rest).map fun (v, rest) => (replaceEscapes unescapeSingle? v, rest)
  | '"' :: rest => (quoted? '"' rest).map fun (v, rest) => (replaceEscapes unescape? v, rest)
  | '#' :: rest => some (if cs.head? == some '#' then unquoted cs else ([], '#' :: rest))
  | rest => some (unquoted rest)

/-! ## Statements -/

/-- A statement. -/
inductive Statement where
  | binding (b : Binding)
  | comment
  | unreadable
  deriving DecidableEq, Repr

/-- The text behind the end of the line, if nothing but a comment stands before it. -/
def endLine? (cs : List Char) : Option (List Char) :=
  match skipBlanks cs with
  | '#' :: rest => some (skipLine rest)
  | '\n' :: rest => some rest
  | [] => some []
  | _ => none

/-- The text behind the word `export` and the blanks behind it. -/
def skipExport (cs : List Char) : List Char :=
  match cs with
  | 'e' :: 'x' :: 'p' :: 'o' :: 'r' :: 't' :: c :: rest =>
    if isInlineBlank c then skipBlanks rest else cs
  | _ => cs

/-- A name at the front, and what follows it. -/
def name? (cs : List Char) : Option (List Char × List Char) :=
  match cs with
  | '\'' :: rest =>
    match rest.takeWhile (· != '\''), rest.dropWhile (· != '\'') with
    | c :: name, _ :: rest => some (c :: name, rest)
    | _, _ => none
  | _ =>
    match cs.takeWhile (fun c => c != '=' && c != '#' && !isBlank c) with
    | [] => none
    | name => some (name, cs.drop name.length)

/-- A name with or without value whose line has to end here. -/
def finish (name : List Char) (value : Option (List Char)) (rest : List Char) :
    Statement × List Char :=
  match endLine? rest with
  | some rest => (.binding (String.ofList name, value.map String.ofList), rest)
  | none => (.unreadable, skipLine rest)

/-- The statement at the front, and what follows its line. -/
def statement (cs : List Char) : Statement × List Char :=
  match skipExport cs with
  | '#' :: rest => (.comment, skipLine rest)
  | cs =>
    match name? cs with
    | none => (.unreadable, skipLine cs)
    | some (name, rest) =>
      match skipBlanks rest with
      | '=' :: rest =>
        match value? rest with
        | none => (.unreadable, skipLine rest)
        | some (value, rest) => finish name (some value) rest
      | rest => finish name none rest

/-- The statements of a text that starts on the given line, each with the line on which the one
before it ended. There are at most `bound`. -/
def statementsWithin : (bound line : Nat) → List Char → List (Nat × Statement)
  | 0, _, _ => []
  | bound + 1, line, cs =>
    match cs.dropWhile isBlank with
    | [] => []
    | body =>
      let (s, rest) := statement body
      let breaks := (cs.take (cs.length - rest.length)).count '\n'
      (line, s) :: statementsWithin bound (line + breaks) rest

/-- The statements of a text. -/
def statements (cs : List Char) : List (Nat × Statement) :=
  statementsWithin (cs.length + 1) 1 cs

/-- What a settings file with the given text holds. -/
def ofText (text : String) : EnvFile :=
  let found := statements (dropByteOrderMark text.toList)
  { bindings := found.filterMap fun (_, s) => match s with | .binding b => some b | _ => none
    unreadable := found.filterMap fun (line, s) => if s = .unreadable then some line else none }

/-! ## Assignments -/

/-- Gives a name its value: in the place where it was assigned first, or else at the end. -/
def assign (b : Binding) : List Binding → List Binding
  | [] => [b]
  | c :: cs => if c.1 = b.1 then b :: cs else c :: assign b cs

/-- What a reference stands for: the value assigned so far, or else that in the environment. A name
without value stands for nothing. -/
def resolve (environment : List (String × String)) (assigned : List Binding) (r : Reference) :
    String :=
  match assigned.lookup r.name with
  | some value => value.getD ""
  | none => (environment.lookup r.name).getD r.default

/-- The last value of each name, in the order of first assignments. References see the assignments
before them and the environment. -/
def assignments (environment : List (String × String)) (f : EnvFile) : List Binding :=
  f.bindings.foldl
    (fun assigned (name, value) =>
      let value := value.map fun v =>
        String.ofList (expand (resolve environment assigned) v.toList)
      assign (name, value) assigned)
    []

end EnvFile
end UsingStyle
