/-! # Output of a program -/

namespace UsingStyle

/-- What is written to the two streams of a program. -/
structure Output where
  out : String
  err : String
  deriving DecidableEq, Repr

namespace Output

/-- Nothing written. -/
def empty : Output := ⟨"", ""⟩

/-- One output after another. -/
def append (a b : Output) : Output :=
  ⟨a.out ++ b.out, a.err ++ b.err⟩

/-- A line on the error stream. -/
def errLine (s : String) : Output := ⟨"", s ++ "\n"⟩

end Output

end UsingStyle
