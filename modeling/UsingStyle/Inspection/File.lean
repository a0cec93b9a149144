import UsingStyle.Encoding
import UsingStyle.FileTree
import UsingStyle.Inspection
import UsingStyle.Pool
import UsingStyle.Report
import UsingStyle.Text.Literal

/-! # Inspection of files

A file is read, decoded and inspected on its own. The reports of several files come in the order of
the files; the first file that cannot be inspected decides the error.
-/

namespace UsingStyle

/-- Why a file cannot be inspected. Paths and encodings are given as they are written. -/
inductive FileError where
  /-- The name of the encoding holds the null character. -/
  | nullInEncoding
  /-- The path holds the null character. -/
  | nullInPath
  | notFound (path : String)
  | isDirectory (path : String)
  | notDirectory (path : String)
  | nameTooLong (path : String)
  | unknownEncoding (name : String)
  | notTextEncoding (name : String)
  /-- The decoder refuses the bytes, with the given words. -/
  | undecodable (refusal : String)
  | inspection (error : InspectionError)
  deriving DecidableEq, Repr

/-- The error by its earlier name. -/
@[match_pattern, deprecated FileError.undecodable (since := "2025-11-18")]
abbrev FileError.byteOrderMarkMissing {refusal : String} : FileError := .undecodable refusal

/-- A name as far as a message shows it: its first 400 bytes. -/
def shownName (name : String) : String :=
  String.ofList (Encoding.Utf8.decode (name.toUTF8.toList.take 400))

/-- The text of the error. -/
def FileError.message : FileError → String
  | nullInEncoding => "embedded null character"
  | nullInPath => "embedded null byte"
  | notFound path => "[Errno 2] No such file or directory: " ++ Text.literal path
  | isDirectory path => "[Errno 21] Is a directory: " ++ Text.literal path
  | notDirectory path => "[Errno 20] Not a directory: " ++ Text.literal path
  | nameTooLong path => "[Errno 36] File name too long: " ++ Text.literal path
  | unknownEncoding name => "unknown encoding: " ++ name
  | notTextEncoding name =>
    "'" ++ shownName name ++
      "' is not a text encoding; use codecs.open() to handle arbitrary codecs"
  | undecodable refusal => refusal
  | inspection error => error.message

/-- The bytes of the file that a path leads to. -/
def FileTree.read (t : FileTree) (p : Path) : Except FileError (List UInt8) :=
  match t.walk (t.start p) p.parts with
  | .error .notFound => .error (.notFound p.text)
  | .error .notDirectory => .error (.notDirectory p.text)
  | .error .nameTooLong => .error (.nameTooLong p.text)
  | .ok l =>
    match t.entry? l with
    | some (.file content) => .ok content
    | some .directory => .error (.isDirectory p.text)
    | none => .error (.notFound p.text)

/-- The text that the bytes spell in the encoding with the given name, with unified line breaks. -/
def decodeText (codecs : Codecs) (encoding : String) (bytes : List UInt8) :
    Except FileError String :=
  match codecs.lookup? encoding with
  | none => .error (.unknownEncoding encoding)
  | some .transform => .error (.notTextEncoding encoding)
  | some (.text decode) =>
    match decode bytes with
    | .ok cs => .ok (String.ofList (Encoding.unifyBreaks cs))
    | .error refusal => .error (.undecodable refusal)

/-- The inspection of one file: how many directives it has, and its report. -/
structure FileInspection where
  directives : Nat
  report : Report
  deriving DecidableEq, Repr

/-- Inspects one file. -/
def inspectFile (codecs : Codecs) (t : FileTree) (key : SortKey) (encoding : String) (p : Path) :
    Except FileError FileInspection := do
  if encoding.toList.contains '\x00' then throw .nullInEncoding
  if p.text.toList.contains '\x00' then throw .nullInPath
  let bytes ← t.read p
  let text ← decodeText codecs encoding bytes
  let directives := scan text
  match inspect key directives with
  | .ok records => return ⟨directives.length, ⟨p.text, records⟩⟩
  | .error e => throw (.inspection e)

/-- The results up to the first error, and that error. -/
def untilError {ε α : Type} : List (Except ε α) → List α × Option ε
  | [] => ([], none)
  | .error e :: _ => ([], some e)
  | .ok a :: rest => (a :: (untilError rest).1, (untilError rest).2)

/-- Inspects files up to the first that fails: the inspections before it, and its error. A single
worker takes the files in order, and so it is with a single file; otherwise the workers share the
files and act in the order of `turns`. -/
def inspectFiles (codecs : Codecs) (t : FileTree) (key : SortKey) (encoding : String)
    (workers : Workers) (turns : List Nat) (ps : List Path) :
    List FileInspection × Option FileError :=
  let work := inspectFile codecs t key encoding
  untilError <|
    if workers.count == 1 || ps.length < 2 then ps.map work
    else Pool.results workers turns work ps

/-- The reports of all files, or the error of the first that fails. The codecs are the common ones
if no others are given. -/
def reportFiles (t : FileTree) (key : SortKey) (encoding : String) (workers : Workers)
    (turns : List Nat) (ps : List Path) (codecs : Codecs := .common) :
    Except FileError (List Report) :=
  match inspectFiles codecs t key encoding workers turns ps with
  | (is, none) => .ok (is.map FileInspection.report)
  | (_, some e) => .error e

end UsingStyle
