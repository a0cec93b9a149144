import UsingStyle.CommandLine.Flag
import UsingStyle.Text.Literal

/-! # Usage

What the program says about its command line, and what it says when it cannot read one.
-/

namespace UsingStyle.CommandLine

/-- The name of the program. -/
def program : String := "opinionated-usings"

/-- The version of the program, as it prints it. -/
def versionText : String := program ++ " 0.1.0\n"

/-- The usage paragraph. -/
def usageText : String :=
  "usage: opinionated-usings [-h] -i PATTERN [PATTERN ...]\n" ++
  "                          [-e PATTERN [PATTERN ...]] [--verbose]\n" ++
  "                          [--format \x7btext,json\x7d] [--sort-key \x7bname,alias\x7d]\n" ++
  "                          [--workers WORKERS] [--version]\n"

/-- The help text. -/
def helpText : String :=
  usageText ++
  "\n" ++
  "Examines the using directives in your C# code.\n" ++
  "\n" ++
  "options:\n" ++
  "  -h, --help            show this help message and exit\n" ++
  "  -i PATTERN [PATTERN ...], --inputs PATTERN [PATTERN ...]\n" ++
  "                        Glob patterns of the files to be inspected\n" ++
  "  -e PATTERN [PATTERN ...], --excludes PATTERN [PATTERN ...]\n" ++
  "                        Glob patterns of the files to be excluded\n" ++
  "  --verbose             If set, makes the console output more verbose\n" ++
  "  --format \x7btext,json\x7d  Output format (default: text)\n" ++
  "  --sort-key \x7bname,alias\x7d\n" ++
  "                        Sort aliased using directives by name or by alias\n" ++
  "                        (default: from settings)\n" ++
  "  --workers WORKERS     Number of files inspected in parallel (default: from\n" ++
  "                        settings)\n" ++
  "  --version             show program's version number and exit\n"

/-- Why a command line cannot be read. -/
inductive UsageError where
  /-- A shortened flag fits several spellings. -/
  | ambiguous (given : String) (spellings : List String)
  /-- A flag lacks its value or values. -/
  | valueMissing (flag : Flag)
  /-- A flag that takes no value has one attached. -/
  | valueIgnored (flag : Flag) (value : String)
  /-- A value is none of the choices. -/
  | invalidChoice (flag : Flag) (value : String) (choices : List String)
  /-- A value is no integer. -/
  | invalidInteger (flag : Flag) (value : String)
  /-- Flags that have to be given are not. -/
  | required (flags : List Flag)
  /-- Some arguments belong to no flag. -/
  | unrecognized (arguments : List String)
  deriving DecidableEq, Repr

/-- A message about a flag. -/
def aboutFlag (f : Flag) (message : String) : String :=
  "argument " ++ f.display ++ ": " ++ message

/-- The text of the error. -/
def UsageError.message : UsageError → String
  | ambiguous given spellings =>
    "ambiguous option: " ++ given ++ " could match " ++ ", ".intercalate spellings
  | valueMissing f =>
    aboutFlag f <|
      match f.arity with
      | .many => "expected at least one argument"
      | _ => "expected one argument"
  | valueIgnored f value => aboutFlag f ("ignored explicit argument " ++ Text.literal value)
  | invalidChoice f value choices =>
    aboutFlag f ("invalid choice: " ++ Text.literal value ++ " (choose from " ++
      ", ".intercalate (choices.map Text.literal) ++ ")")
  | invalidInteger f value => aboutFlag f ("invalid int value: " ++ Text.literal value)
  | required flags =>
    "the following arguments are required: " ++ ", ".intercalate (flags.map Flag.display)
  | unrecognized arguments => "unrecognized arguments: " ++ " ".intercalate arguments

/-- A line about an error of the program. -/
def errorLine (message : String) : String :=
  program ++ ": error: " ++ message ++ "\n"

end UsingStyle.CommandLine
