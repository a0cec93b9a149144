import UsingStyle.Path

/-! # File trees

The state of a file system, as a value: what stands at which location, and where relative paths
start. The top of the file system is a directory. There are no links, so a location belongs to one
entry.
-/

namespace UsingStyle

/-- What stands at a location. -/
inductive Entry where
  | directory
  | file (content : List UInt8)
  deriving DecidableEq, Repr, Inhabited

/-- The directories and files below the top of the file system, and the working directory. -/
structure FileTree where
  entries : List (Location × Entry)
  workingDirectory : Location
  deriving Repr, Inhabited

namespace FileTree

/-- The tree with an empty top directory. -/
def empty : FileTree := ⟨[], []⟩

/-- What stands at a location. -/
def entry? (t : FileTree) (l : Location) : Option Entry :=
  if l.isEmpty then some .directory
  else (t.entries.find? fun e => e.1 == l).map Prod.snd

/-- Whether a directory stands at a location. -/
def isDirectory (t : FileTree) (l : Location) : Bool :=
  t.entry? l == some .directory

/-- Whether a file stands at a location. -/
def isFile (t : FileTree) (l : Location) : Bool :=
  match t.entry? l with
  | some (.file _) => true
  | _ => false

/-- The names in the directory at a location. -/
def names (t : FileTree) (l : Location) : List String :=
  t.entries.filterMap fun e =>
    match e.1.getLast? with
    | some name => if e.1.dropLast == l then some name else none
    | none => none

/-- The ways from the directory at a location down to everything below it. -/
def descents (t : FileTree) (l : Location) : List Location :=
  t.entries.filterMap fun e =>
    if l.isPrefixOf e.1 && l.length < e.1.length then some (e.1.drop l.length) else none

/-- The tree with an entry at a location, in place of what stood there. -/
def put (t : FileTree) (l : Location) (e : Entry) : FileTree :=
  { t with entries := t.entries.filter (fun f => f.1 != l) ++ [(l, e)] }

/-- The tree with a directory at a location and at everything above it. -/
def addDirectory (t : FileTree) (l : Location) : FileTree :=
  (List.range l.length).foldl
    (fun t n => if (t.entry? (l.take (n + 1))).isSome then t else t.put (l.take (n + 1)) .directory)
    t

/-- The tree with a file at a location and directories above it. -/
def addFile (t : FileTree) (l : Location) (content : List UInt8) : FileTree :=
  (t.addDirectory l.dropLast).put l (.file content)

/-! ## Following a path -/

/-- Where a path starts. -/
def start (t : FileTree) (p : Path) : Location :=
  if p.anchor == "" then t.workingDirectory else []

/-- Where a path leads to when all its directories exist. -/
def locate (t : FileTree) (p : Path) : Location :=
  p.parts.foldl Path.resolveStep (t.start p)

/-- Why a path leads nowhere. -/
inductive WalkError where
  /-- A part of the path does not exist. -/
  | notFound
  /-- A part of the path that is not its last is a file. -/
  | notDirectory
  /-- A part of the path is longer than a name in a directory can be. -/
  | nameTooLong
  deriving DecidableEq, Repr

/-- The most bytes that a name in a directory has. -/
def maxNameSize : Nat := 255

/-- Follows the parts of a path from a location. -/
def walk (t : FileTree) : Location → List String → Except WalkError Location
  | l, [] => .ok l
  | l, part :: parts =>
    if !t.isDirectory l then .error .notDirectory
    else if maxNameSize < part.utf8ByteSize then .error .nameTooLong
    else
      let next := Path.resolveStep l part
      if (t.entry? next).isSome then t.walk next parts else .error .notFound

end FileTree
end UsingStyle
