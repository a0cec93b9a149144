import UsingStyle.Finding
import UsingStyle.Inspection.Error
import UsingStyle.SortKey

/-! # The order of directives

Aliased directives come first, in the order of their names or of their aliases, and those without
alias follow in any order. A directive is compared only with the last aliased and the last
non-aliased directive before it. Texts are ordered by code points.
-/

namespace UsingStyle

/-- The last aliased and the last non-aliased directive so far. -/
structure Order where
  aliased : Option Directive
  nonAliased : Option Directive
  deriving DecidableEq, Repr

namespace Order

/-- The order before the first directive. -/
def empty : Order := ⟨none, none⟩

/-- The order after a directive. -/
def advance (o : Order) (d : Directive) : Order :=
  match d.aliasName with
  | none => { o with nonAliased := some d }
  | some _ => { o with aliased := some d }

/-- The alias of the last aliased directive, with the directive. -/
def previousAliased? (o : Order) : Except InspectionError (Option (Directive × String)) :=
  match o.aliased with
  | none => .ok none
  | some p =>
    match p.aliasName with
    | none => .error .aliasMissing
    | some a => .ok (some (p, a))

/-- The last directive without alias. -/
def previousNonAliased? (o : Order) : Except InspectionError (Option Directive) :=
  match o.nonAliased with
  | none => .ok none
  | some p => if p.aliasName.isSome then .error .aliasUnexpected else .ok (some p)

/-- The finding against an aliased directive behind one without alias. -/
def precedenceFinding? (d : Directive) (previous : Option Directive) : Option Finding :=
  previous.map (.afterNonAliased d)

/-- The finding against a directive with the alias `aliasName` behind another aliased one. -/
def alphabeticalFinding? (key : SortKey) (d : Directive) (aliasName : String)
    (previous : Option (Directive × String)) : Option Finding :=
  match previous with
  | none => none
  | some (p, previousAlias) =>
    match key with
    | .name => if d.name < p.name then some (.afterGreaterName d p) else none
    | .aliasName =>
      if aliasName < previousAlias then some (.afterGreaterAlias d aliasName p previousAlias)
      else none

/-- The findings about the place of a directive behind those of the order. -/
def findings (o : Order) (key : SortKey) (d : Directive) :
    Except InspectionError (List Finding) := do
  let aliased ← o.previousAliased?
  let nonAliased ← o.previousNonAliased?
  match d.aliasName with
  | none => return []
  | some a =>
    return (precedenceFinding? d nonAliased).toList ++
      (alphabeticalFinding? key d a aliased).toList

/-- The findings about the place of a directive, provided that they can be printed. All of them can
where the directives come from a source; a directive that is given as data may stand on any line. -/
def writableFindings (o : Order) (key : SortKey) (d : Directive) :
    Except InspectionError (List Finding) := do
  let findings ← o.findings key d
  if findings.all Finding.isWritable then return findings else throw .lineTooLong

end Order
end UsingStyle
