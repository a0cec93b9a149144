import UsingStyle.Report
import UsingStyle.Text.Decimal
import UsingStyle.Text.Hex

/-! # Reports as JSON

The reports as one JSON array, two blanks deeper at each level and with one element or member on
each line; an empty array stands on one line. Members come in the order of their declaration.
-/

namespace UsingStyle.Json

/-- The written form of one character in a JSON string. Only quotes, backslashes and the controls
below the blank are escaped. -/
def escape (c : Char) : List Char :=
  match c with
  | '"' => ['\\', '"']
  | '\\' => ['\\', '\\']
  | '\x08' => ['\\', 'b']
  | '\t' => ['\\', 't']
  | '\n' => ['\\', 'n']
  | '\x0c' => ['\\', 'f']
  | '\r' => ['\\', 'r']
  | c => if c.toNat < 0x20 then '\\' :: 'u' :: Text.hex 4 c.toNat else [c]

/-- A JSON string. -/
def string (s : String) : String :=
  String.ofList ('"' :: s.toList.flatMap escape ++ ['"'])

/-- The start of a line at the given depth. -/
def indent (depth : Nat) : String :=
  String.ofList (List.replicate (2 * depth) ' ')

/-- Written items between brackets, one on each line, in a value at the given depth. -/
def block (left right : String) (depth : Nat) : List String → String
  | [] => left ++ right
  | item :: items =>
    left ++ "\n" ++ indent (depth + 1) ++ item ++
      String.join (items.map fun i => ",\n" ++ indent (depth + 1) ++ i) ++
      "\n" ++ indent depth ++ right

/-- An array of written items. -/
def array (depth : Nat) (items : List String) : String :=
  block "[" "]" depth items

/-- An object of names and written values. -/
def object (depth : Nat) (members : List (String × String)) : String :=
  block "\x7b" "\x7d" depth (members.map fun m => string m.1 ++ ": " ++ m.2)

end UsingStyle.Json

namespace UsingStyle

/-- A record as a JSON object. -/
def Record.toJson (depth : Nat) (r : Record) : String :=
  Json.object depth
    [("line", Text.natural r.line),
     ("column", Text.natural r.column),
     ("errors", Json.array (depth + 1) (r.errors.map Json.string))]

/-- A report as a JSON object. -/
def Report.toJson (depth : Nat) (r : Report) : String :=
  Json.object depth
    [("path", Json.string r.path),
     ("records", Json.array (depth + 1) (r.records.map (Record.toJson (depth + 2))))]

/-- The reports as JSON text, with a line feed at its end. -/
def Report.renderJson (reports : List Report) : String :=
  Json.array 0 (reports.map (Report.toJson 1)) ++ "\n"

end UsingStyle
