import UsingStyle.Choice

/-! # Sort keys -/

namespace UsingStyle

/-- What aliased directives are sorted by. -/
inductive SortKey where
  | name
  | aliasName
  deriving DecidableEq, Repr, Inhabited

namespace SortKey

/-- The word for a sort key. -/
def word : SortKey → String
  | name => "name"
  | aliasName => "alias"

/-- The sort key with the given word. -/
def ofWord (s : String) : Except InvalidChoice SortKey :=
  chooseByWord "SortKey" word [name, aliasName] s

end SortKey

end UsingStyle
