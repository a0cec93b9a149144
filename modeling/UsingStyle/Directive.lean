import UsingStyle.Text.Blank

/-! # Using directives

A directive brings a namespace or a type into scope, under its own name or under an alias. Its
position counts from zero. Positions of directives found in a source are never negative, but a
directive may be built from any integers.
-/

namespace UsingStyle

/-- A using directive. `text` runs from its first word to its semicolon, and `trailing` holds the
blanks and comments that follow it on the line where it starts. -/
structure Directive where
  text : String
  name : String
  line : Int
  column : Int
  aliasName : Option String
  trailing : List String
  deriving DecidableEq, Repr, Inhabited

/-! ## The last segment of a qualified name -/

/-- The characters outside all `<…>`, given how many lists are open. A `>` that closes nothing is
dropped as well. -/
def dropTypeArguments : (depth : Nat) → List Char → List Char
  | _, [] => []
  | depth, c :: cs =>
    if c == '<' then dropTypeArguments (depth + 1) cs
    else if c == '>' then dropTypeArguments (depth - 1) cs
    else if depth == 0 then c :: dropTypeArguments depth cs
    else dropTypeArguments depth cs

/-- What follows the last `.` or `::`, if there is one. Separators are found from left to right. -/
def afterLastSeparator : List Char → Option (List Char)
  | ':' :: ':' :: cs => some ((afterLastSeparator cs).getD cs)
  | '.' :: cs => some ((afterLastSeparator cs).getD cs)
  | _ :: cs => afterLastSeparator cs
  | [] => none

/-- The last segment of a dotted name, as it is written. -/
def lastSegment (cs : List Char) : List Char :=
  (afterLastSeparator cs).getD cs

namespace Directive

/-- The last segment of the name, without type arguments and surrounding blanks. -/
def terminalName (d : Directive) : String :=
  Text.trim (String.ofList (lastSegment (dropTypeArguments 0 d.name.toList)))

/-- Whether the directive gives its target an alias. -/
def isAliased (d : Directive) : Bool :=
  d.aliasName.isSome

/-- The line number as people count. -/
def displayLine (d : Directive) : Int :=
  d.line + 1

end Directive

/-! ## Shapes -/

/-- The shape of a directive, which decides the marking that it needs. -/
inductive Shape where
  /-- The directive has no alias. -/
  | nonAliased
  /-- The alias repeats the terminal name. -/
  | plainAliased (aliasName : String)
  /-- The alias differs from the terminal name. -/
  | renamingAliased (aliasName terminalName : String)
  deriving DecidableEq, Repr

/-- The shape of a directive. -/
def Directive.shape (d : Directive) : Shape :=
  match d.aliasName with
  | none => .nonAliased
  | some a => if a = d.terminalName then .plainAliased a else .renamingAliased a d.terminalName

end UsingStyle
