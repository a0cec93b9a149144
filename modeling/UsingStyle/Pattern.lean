import UsingStyle.Path
import UsingStyle.Pattern.Wildcard

/-! # Path patterns

A pattern selects paths part by part. A part is a name, a name pattern, `**` for any number of
directories, or nothing behind a closing slash, which asks for a directory. Wildcards pass over
names that start with a dot unless their own text starts with one; `**` always does.
-/

namespace UsingStyle.Pattern

/-- What a pattern asks of one part of a path. -/
inductive Component where
  | name (name : String)
  | wildcards (pattern : List Wildcard) (hidden : Bool)
  | anyDepth
  | directory
  deriving DecidableEq, Repr

/-- Whether a name starts with a dot. -/
def isHidden (name : String) : Bool :=
  name.toList.head? == some '.'

/-- Whether a text has a character that can start a wildcard. -/
def hasWildcard (cs : List Char) : Bool :=
  cs.any fun c => c == '*' || c == '?' || c == '['

namespace Component

/-- The component that a text between slashes spells. -/
def ofText (cs : List Char) : Component :=
  if cs == ['*', '*'] then anyDepth
  else if hasWildcard cs then wildcards (Wildcard.ofText cs) (cs.head? == some '.')
  else name (String.ofList cs)

/-- Whether the component takes a name among those of a directory. -/
def takes : Component → String → Bool
  | wildcards pattern hidden, s => (hidden || !isHidden s) && Wildcard.accepts pattern s.toList
  | _, _ => false

/-- The components of a pattern. Slashes in a row count as one. -/
def listOfText (s : String) : List Component :=
  let pieces := Path.splitSlashes s.toList
  (pieces.filter fun piece => !piece.isEmpty).map ofText ++
    if pieces.getLast? == some [] then [directory] else []

end Component

/-- Where a pattern starts, and its components. A pattern is read from the root path, whose parts
stand for themselves, unless it starts with a slash. -/
def ofText (root : Path) (s : String) : Path × List Component :=
  match Path.anchorOf s.toList with
  | "" => (⟨root.anchor, []⟩, root.parts.map Component.name ++ Component.listOfText s)
  | anchor => (⟨anchor, []⟩, Component.listOfText s)

/-- Whether a component is found by listing a directory. Names of the root count as found so if they
have the characters of wildcards. -/
def Component.lists : Component → Bool
  | .name part => hasWildcard part.toList
  | .wildcards _ _ | .anyDepth => true
  | .directory => false

/-- Whether a pattern asks to list a directory whose name holds the null character. No directory has
such a name, but to ask for it is an error. -/
def listsNull (root : Path) (s : String) : Bool :=
  let components := (ofText root s).2
  components.any Component.lists &&
    (components.takeWhile fun c => !c.lists).any fun c =>
      match c with
      | .name part => part.toList.contains '\x00'
      | _ => false

/-- The names in front of the first component that is no name. -/
def leadingNames : List Component → List String
  | .name part :: components => part :: leadingNames components
  | _ => []

/-- The path below which everything lies that a pattern can hit. -/
def base (root : Path) (s : String) : Path :=
  let (start, components) := ofText root s
  { start with parts := (leadingNames components).filter (· != ".") }

end UsingStyle.Pattern
