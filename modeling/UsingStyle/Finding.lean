import UsingStyle.Directive
import UsingStyle.Marking
import UsingStyle.Text.Decimal
import UsingStyle.Text.Quote

/-! # Findings

A finding is a reason why a directive does not conform to the style. `Directive.markingFinding?`
judges a directive by its own marking; the findings about the order of directives are in
`UsingStyle.Order`.
-/

namespace UsingStyle

/-- A reason why `directive` does not conform. Markings are given by their text. -/
inductive Finding where
  /-- The marking is none of the known ones. -/
  | unrecognizedMarking (directive : Directive) (marking : String)
  /-- A directive without alias has no marking. -/
  | unmarkedNonAliased (directive : Directive)
  /-- A directive without alias has another marking than its own. -/
  | mismarkedNonAliased (directive : Directive) (marking : String)
  /-- An alias that repeats the terminal name has a marking. -/
  | markedPlain (directive : Directive) (marking : String)
  /-- An alias that differs from the terminal name has no marking. -/
  | unmarkedRenaming (directive : Directive)
  /-- An alias that differs from the terminal name has another marking than its own. -/
  | mismarkedRenaming (directive : Directive) (marking : String)
  /-- An aliased directive follows one without alias. -/
  | afterNonAliased (directive previous : Directive)
  /-- An aliased directive follows one with a greater name. -/
  | afterGreaterName (directive previous : Directive)
  /-- An aliased directive follows one with a greater alias. -/
  | afterGreaterAlias (directive : Directive) (aliasName : String)
      (previous : Directive) (previousAlias : String)
  deriving DecidableEq, Repr

/-- The directive as messages quote it. -/
def Directive.code (d : Directive) : String :=
  Text.quote (Text.trimEnd d.text)

/-- The text of a finding. -/
def Finding.message : Finding → String
  | unrecognizedMarking d marking =>
    "Unrecognized marking comment for the using directive " ++ d.code ++ ": " ++ Text.quote marking
  | unmarkedNonAliased d =>
    "Expected a non-aliased using directive " ++ d.code ++
      " to be explicitly marked with `// can't alias` comment, but found no marking."
  | mismarkedNonAliased d marking =>
    "Expected a non-aliased using directive " ++ d.code ++
      " to be explicitly marked with `// can't alias` comment, but found the marking: " ++
      Text.quote marking
  | markedPlain d marking =>
    "Expected an aliased using directive " ++ d.code ++
      " to have no marking comments since there was no renaming involved, " ++
      "but found the marking comment: " ++ Text.quote marking
  | unmarkedRenaming d =>
    "Expected an aliased using directive " ++ d.code ++
      " with the alias different from the name to have the marking comment `// renamed`, " ++
      "but found no marking comment."
  | mismarkedRenaming d marking =>
    "Expected an aliased using directive " ++ d.code ++
      " with the alias different from the name to have the marking comment `// renamed`, " ++
      "but found the marking comment: " ++ Text.quote marking ++ "."
  | afterNonAliased d previous =>
    "Expected aliased using directive " ++ d.code ++ " before the non-aliased using directive " ++
      previous.code ++ " at line " ++ Text.integer previous.displayLine ++ "."
  | afterGreaterName d previous =>
    "Expected aliased using directive " ++ d.code ++
      " before the previous aliased using directive " ++ previous.code ++ " at line " ++
      Text.integer previous.displayLine ++ " (by alphabetical order)."
  | afterGreaterAlias d aliasName previous previousAlias =>
    "Expected the alias " ++ Text.quote aliasName ++ " from the using directive " ++ d.code ++
      " before the previous alias " ++ Text.quote previousAlias ++ " from the using directive " ++
      previous.code ++ " at line " ++ Text.integer previous.displayLine ++
      " (by alphabetical order)."

/-- The line number that a finding cites. -/
def Finding.citedLine? : Finding → Option Int
  | afterNonAliased _ previous | afterGreaterName _ previous | afterGreaterAlias _ _ previous _ =>
    some previous.displayLine
  | _ => none

/-- Whether the text of a finding can be printed. -/
def Finding.isWritable (f : Finding) : Bool :=
  f.citedLine?.all Text.isWritable

/-- What is wrong with the marking of a directive. A directive without alias needs
`// can't alias`, an alias that repeats the terminal name needs no marking, and any other alias
needs `// renamed`. An unknown marking is wrong everywhere. -/
def Directive.markingFinding? (d : Directive) (marking : Option Marking) : Option Finding :=
  match marking, d.shape with
  | some ⟨.unknown, text⟩, _ => some (.unrecognizedMarking d text)
  | none, .nonAliased => some (.unmarkedNonAliased d)
  | some ⟨.cantAlias, _⟩, .nonAliased => none
  | some ⟨.renamed, text⟩, .nonAliased => some (.mismarkedNonAliased d text)
  | none, .plainAliased _ => none
  | some ⟨_, text⟩, .plainAliased _ => some (.markedPlain d text)
  | none, .renamingAliased _ _ => some (.unmarkedRenaming d)
  | some ⟨.renamed, _⟩, .renamingAliased _ _ => none
  | some ⟨.cantAlias, text⟩, .renamingAliased _ _ => some (.mismarkedRenaming d text)

end UsingStyle
