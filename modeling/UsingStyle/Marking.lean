import UsingStyle.Choice
import UsingStyle.Text.Blank

/-! # Markings

A line comment behind a directive says why the directive may stand as it does: `// can't alias` or
`// renamed`. The first piece of trailing trivia that is not blank is the marking.
-/

namespace UsingStyle

/-- What a marking says. -/
inductive MarkingKind where
  | unknown
  | cantAlias
  | renamed
  deriving DecidableEq, Repr

namespace MarkingKind

/-- The word for a kind of marking. -/
def word : MarkingKind → String
  | unknown => "unknown"
  | cantAlias => "can't alias"
  | renamed => "renamed"

/-- The kind with the given word. -/
def ofWord (s : String) : Except InvalidChoice MarkingKind :=
  chooseByWord "MarkingKind" word [unknown, cantAlias, renamed] s

/-- The kind that the text of a marking comment spells. -/
def ofKeyword (s : String) : MarkingKind :=
  if s = cantAlias.word then cantAlias else if s = renamed.word then renamed else unknown

/-- The kind of a piece of trivia that is not blank. Only a line comment with a text can be a known
marking. -/
def ofPiece (piece : String) : MarkingKind :=
  match piece.toList with
  | '/' :: '/' :: c :: cs => ofKeyword (Text.trim (String.ofList (c :: cs)))
  | _ => unknown

/-- The kind of the first piece of trivia that is not blank. -/
def ofTrivia? (trivia : List String) : Option MarkingKind :=
  (trivia.find? fun piece => !piece.toList.all Text.isBlank).map ofPiece

end MarkingKind

/-- The marking of a directive. The text is the whole trailing trivia, so that it can be quoted. -/
structure Marking where
  kind : MarkingKind
  text : String
  deriving DecidableEq, Repr

/-- The marking that the trailing trivia of a directive holds. -/
def Marking.ofTrivia? (trivia : List String) : Option Marking :=
  (MarkingKind.ofTrivia? trivia).map fun kind => ⟨kind, Text.trimEnd (String.join trivia)⟩

end UsingStyle
