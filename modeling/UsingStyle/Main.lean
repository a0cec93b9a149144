import UsingStyle.Run

/-! # The command line

Takes a view of the file system and the environment, runs the program on it, and prints. Only the
part of the file system that the patterns can reach is looked at, and only the selected files and
the settings file are read. Of the codecs, it knows the common ones.
-/

namespace UsingStyle.Main

/-- The text of a location. -/
def textOf (l : Location) : String :=
  "/" ++ "/".intercalate l

/-- The entries at a location and below it, without contents. Links to directories are left out. -/
partial def entriesBelow (l : Location) : IO (List (Location × Entry)) := do
  let path ← IO.FS.realPath (textOf l)
  if ← path.isDir then
    let mut entries := [(l, Entry.directory)]
    for child in ← path.readDir do
      let target ← IO.FS.realPath child.path
      if target == child.path || !(← target.isDir) then
        entries := entries ++ (← entriesBelow (l ++ [child.fileName]))
    return entries
  else if ← path.pathExists then return [(l, .file [])]
  else return []

/-- The tree with everything that lies at a location or below it. -/
def addBelow (t : FileTree) (l : Location) : IO FileTree := do
  let t := t.addDirectory l.dropLast
  let known := t.entries.map Prod.fst
  let found ← entriesBelow l
  let new := found.filter fun e => !e.1.isEmpty && !known.contains e.1
  return { t with entries := t.entries ++ new }

/-- The tree with the bytes of a file, if there is one. -/
def addContent (t : FileTree) (l : Location) : IO FileTree := do
  let path ← IO.FS.realPath (textOf l)
  if (← path.pathExists) && !(← path.isDir) then
    return t.addFile l (← IO.FS.readBinFile path).toList
  else return t

/-- The environment, as the system gives it to the process. -/
def environment : IO (List (String × String)) := do
  let bytes ← IO.FS.readBinFile "/proc/self/environ"
  let entries := String.ofList (Encoding.Utf8.decode bytes.toList) |>.splitOn "\x00"
  return entries.filterMap fun v =>
    match v.splitOn "=" with
    | name :: value :: rest => some (name, "=".intercalate (value :: rest))
    | _ => none

/-- What the run sees of the world. -/
def look (arguments : List String) : IO World := do
  let home := Path.ofString (← IO.currentDir).toString
  let start := { FileTree.empty with workingDirectory := home.location }
  let mut tree ← addContent (start.addDirectory home.location) (home.push ".env").location
  if let .ok (.run r) := CommandLine.parse arguments then
    let includes := r.inputs.getD []
    for pattern in includes ++ r.excludes do
      tree ← addBelow tree (Pattern.base home pattern).location
    for path in (tree.select home includes r.excludes).paths do
      tree ← addContent tree path.location
  return ⟨tree, ← environment, home, home, []⟩

end UsingStyle.Main

/-- Runs the program and gives its exit code. -/
def main (arguments : List String) : IO UInt32 := do
  match UsingStyle.run (← UsingStyle.Main.look arguments) arguments with
  | .exit code output =>
    IO.print output.out
    IO.eprint output.err
    return code.toUInt32
  | .abort cause =>
    IO.eprintln cause.message
    return 1
