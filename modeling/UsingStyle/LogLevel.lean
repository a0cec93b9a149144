/-! # Log levels

A log line is shown when it is at least as severe as the level that was asked for. Level names are
read in any case.
-/

namespace UsingStyle

/-- The names of the levels. Some levels have two names. -/
inductive LogLevel where
  | critical
  | fatal
  | error
  | warn
  | warning
  | info
  | debug
  | notset
  deriving DecidableEq, Repr, Inhabited

namespace LogLevel

/-- All names, as values. -/
def all : List LogLevel :=
  [critical, fatal, error, warn, warning, info, debug, notset]

/-- The name of a level. -/
def name : LogLevel → String
  | critical => "CRITICAL"
  | fatal => "FATAL"
  | error => "ERROR"
  | warn => "WARN"
  | warning => "WARNING"
  | info => "INFO"
  | debug => "DEBUG"
  | notset => "NOTSET"

/-- How severe a line has to be at a level. -/
def severity : LogLevel → Nat
  | critical | fatal => 50
  | error => 40
  | warn | warning => 30
  | info => 20
  | debug => 10
  | notset => 0

/-- Whether a line at level `line` is shown when `l` was asked for. -/
def shows (l line : LogLevel) : Bool :=
  l.severity ≤ line.severity

/-- The upper-case form of a character where it is ASCII, and otherwise the character itself, which
then stands in no level name. A few letters and ligatures outside ASCII have an ASCII upper-case
form. -/
def upperAscii (c : Char) : List Char :=
  match c with
  | 'ß' => ['S', 'S']
  | 'ı' => ['I']
  | 'ſ' => ['S']
  | 'ﬀ' => ['F', 'F']
  | 'ﬁ' => ['F', 'I']
  | 'ﬂ' => ['F', 'L']
  | 'ﬃ' => ['F', 'F', 'I']
  | 'ﬄ' => ['F', 'F', 'L']
  | 'ﬅ' | 'ﬆ' => ['S', 'T']
  | c => [c.toUpper]

/-- The level with the given name, in any case. -/
def ofText? (s : String) : Option LogLevel :=
  let upper := String.ofList (s.toList.flatMap upperAscii)
  all.find? fun l => l.name == upper

end LogLevel
end UsingStyle
