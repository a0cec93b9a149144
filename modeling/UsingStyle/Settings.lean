import UsingStyle.Codecs
import UsingStyle.LogLevel
import UsingStyle.Settings.EnvFile
import UsingStyle.SortKey
import UsingStyle.Untyped.Check

/-! # Settings

Settings come from environment variables and, where a variable is not set, from a settings file.
Names are read in any case, and an empty value is a value. All invalid settings are reported
together.
-/

namespace UsingStyle

/-- The settings of a run. -/
structure Settings where
  logLevel : LogLevel
  workers : Int
  encoding : String
  sortKey : SortKey
  deriving DecidableEq, Repr

namespace Settings

open Untyped

/-- The settings where nothing is set. -/
def default : Settings := ⟨.warning, 1, "utf-8-sig", .name⟩

/-- What the names of all variables start with. -/
def variablePrefix : String := "opinionated_usings_"

/-- The lower-case form of a character where it is ASCII. The Kelvin sign is the one character
outside ASCII that has one. -/
def lowerAscii (c : Char) : Char :=
  if c == '\u212A' then 'k' else c.toLower

/-- The value of a setting in one source: that of the last variable with its name. -/
def valueIn? (source : List EnvFile.Binding) (setting : String) : Option String :=
  let wanted := variablePrefix ++ setting
  (source.reverse.find? fun v => String.ofList (v.1.toList.map lowerAscii) == wanted).bind
    Prod.snd

/-- Where settings are looked up. -/
structure Sources where
  environment : List (String × String)
  file : Option EnvFile

/-- The value of a setting; the environment comes before the file. -/
def Sources.value? (s : Sources) (setting : String) : Option String :=
  let environment := s.environment.map fun v => (v.1, some v.2)
  valueIn? environment setting <|>
    s.file.bind fun file => valueIn? (file.assignments s.environment) setting

/-- A log level by its name. -/
def checkLogLevel (s : String) : Checked LogLevel :=
  match LogLevel.ofText? s with
  | some l => .ok l
  | none => .fail (.refused ("Unknown log level: " ++ Text.literal s))

/-- The name of an encoding that exists. A name never holds the null character. -/
def checkEncoding (codecs : Codecs) (s : String) : Checked String :=
  if s.toList.contains '\x00' then .fail (.refused "embedded null character")
  else if (codecs.lookup? s).isNone then
    .fail (.refused ("Unknown encoding: " ++ Text.literal s))
  else .ok s

/-- A sort key by its word. -/
def checkSortKey (s : String) : Checked SortKey :=
  match SortKey.ofWord s with
  | .ok key => .ok key
  | .error _ => .fail .notSortKey

/-- A setting that may be left out. -/
def setting {α : Type} (sources : Sources) (name : String) (absent : α)
    (check : String → Checked α) : Checked α :=
  match sources.value? name with
  | some s => Checked.under (.field name) (check s)
  | none => .ok absent

/-- The settings, or the problems of all invalid ones. -/
def read (codecs : Codecs) (sources : Sources) : Checked Settings :=
  let logLevel := setting sources "log_level" default.logLevel checkLogLevel
  let workers := setting sources "workers" default.workers (integerText 1)
  let encoding := setting sources "encoding" default.encoding (checkEncoding codecs)
  let sortKey := setting sources "sort_key" default.sortKey checkSortKey
  (Checked.both logLevel (Checked.both workers (Checked.both encoding sortKey))).map
    fun (logLevel, workers, encoding, sortKey) => ⟨logLevel, workers, encoding, sortKey⟩

end Settings
end UsingStyle
