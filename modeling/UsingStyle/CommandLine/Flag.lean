/-! # Flags

The flags of the command line, how they are spelt and how many values they take.
-/

namespace UsingStyle.CommandLine

/-- A flag. -/
inductive Flag where
  | help
  | inputs
  | excludes
  | verbose
  | format
  | sortKey
  | workers
  | version
  deriving DecidableEq, Repr

/-- How many values a flag takes. -/
inductive Arity where
  | none
  | one
  | many
  deriving DecidableEq, Repr

namespace Flag

/-- All flags, in the order of the help text. -/
def all : List Flag :=
  [help, inputs, excludes, verbose, format, sortKey, workers, version]

/-- The spellings of a flag. A short one has a single dash. -/
def spellings : Flag → List String
  | help => ["-h", "--help"]
  | inputs => ["-i", "--inputs"]
  | excludes => ["-e", "--excludes"]
  | verbose => ["--verbose"]
  | format => ["--format"]
  | sortKey => ["--sort-key"]
  | workers => ["--workers"]
  | version => ["--version"]

/-- The flag as messages name it. -/
def display (f : Flag) : String :=
  "/".intercalate f.spellings

/-- How many values the flag takes. -/
def arity : Flag → Arity
  | help | verbose | version => .none
  | format | sortKey | workers => .one
  | inputs | excludes => .many

/-- All spellings, with their flags. -/
def table : List (String × Flag) :=
  all.flatMap fun f => f.spellings.map fun s => (s, f)

/-- The flag with exactly the given spelling. -/
def ofSpelling? (s : String) : Option Flag :=
  table.lookup s

end Flag
end UsingStyle.CommandLine
