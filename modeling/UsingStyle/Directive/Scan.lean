import UsingStyle.Directive
import UsingStyle.Directive.Scope
import UsingStyle.Text.ByteOrderMark
import UsingStyle.Token.Lexer

/-! # The directives of a source

`scan` finds the using directives of a source text. It is forgiving: a text that is no valid program
has whatever directives can be recognised in it.
-/

namespace UsingStyle

/-- The meaningful tokens, each with all tokens behind it. -/
def meaningful : List Token → List (Token × List Token)
  | [] => []
  | t :: ts => if t.isTrivia then meaningful ts else (t, ts) :: meaningful ts

/-- Blanks and comments may follow a directive on its line. -/
def TokenKind.isTrailing : TokenKind → Bool
  | .whitespace | .lineComment | .blockComment => true
  | _ => false

/-- The blanks and comments at the front of the tokens that start on the given line. -/
def trailingOnLine (line : Nat) (ts : List Token) : List String :=
  ((ts.takeWhile fun t => t.kind.isTrailing).filter fun t => t.start.line == line).map Token.text

/-- The characters from one offset up to another. -/
def slice (source : List Char) (start stop : Nat) : String :=
  String.ofList ((source.drop start).take (stop - start))

/-- The directive with the parts `c` at the front of the meaningful tokens of the source. -/
def Directive.ofClause (source : List Char) (items : List (Token × List Token)) (c : Clause) :
    Directive :=
  let first := (items.getD 0 default).1
  let nameFirst := (items.getD c.nameStart default).1
  let nameLast := (items.getD (c.length - 2) default).1
  let last := items.getD (c.length - 1) default
  { text := slice source first.start.offset last.1.stop
    name := slice source nameFirst.start.offset nameLast.stop
    line := first.start.line
    column := first.start.column
    aliasName := c.aliasName
    trailing := trailingOnLine first.start.line last.2 }

/-- The using directives of a source text, in source order. A byte-order mark at the very start
takes no column. -/
def scan (text : String) : List Directive :=
  let source := Text.dropByteOrderMark text.toList
  let items := meaningful (tokensFrom .start true source)
  (occurrences (items.map Prod.fst)).map fun o =>
    Directive.ofClause source (items.drop o.index) o.clause

end UsingStyle
