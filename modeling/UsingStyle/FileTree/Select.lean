import UsingStyle.FileTree
import UsingStyle.Pattern

/-! # Selecting files by patterns

`select` gives the files that some include pattern hits and no exclude pattern does, in increasing
order. A file that two include patterns spell differently stands there under both spellings;
exclude patterns remove a file however it is spelt.
-/

namespace UsingStyle

namespace FileTree

open Pattern

/-- The paths that extend `p` as the component asks. -/
def extend (t : FileTree) (c : Component) (p : Path) : List Path :=
  if !t.isDirectory (t.locate p) then []
  else
    match c with
    | .directory => [p]
    | .name "." => [p]
    | .name part =>
      if (t.entry? (Path.resolveStep (t.locate p) part)).isSome then [p.push part] else []
    | .wildcards _ _ => ((t.names (t.locate p)).filter c.takes).map p.push
    | .anyDepth =>
      p :: ((t.descents (t.locate p)).filter fun way => way.all fun part => !isHidden part).map
        fun way => { p with parts := p.parts ++ way }

/-- The paths that a pattern hits. -/
def hits (t : FileTree) (root : Path) (pattern : String) : List Path :=
  let (start, components) := Pattern.ofText root pattern
  components.foldl (fun ps c => ps.flatMap (t.extend c)) [start]

/-- The files that some pattern hits, in increasing order. -/
def files (t : FileTree) (root : Path) (patterns : List String) : List Path :=
  Path.sortUnique ((patterns.flatMap (t.hits root)).filter fun p => t.isFile (t.locate p))

/-- The result of a selection: the files, and how many there were before exclusion. -/
structure Selection where
  paths : List Path
  included : Nat
  deriving DecidableEq, Repr

/-- The files that an include pattern hits and no exclude pattern does. -/
def select (t : FileTree) (root : Path) (includes excludes : List String) : Selection :=
  let included := t.files root includes
  let excluded := (t.files root excludes).map t.locate
  ⟨included.filter fun p => !excluded.contains (t.locate p), included.length⟩

/-- The selection, unless a pattern asks to list a directory that cannot be named. -/
def select? (t : FileTree) (root : Path) (includes excludes : List String) : Option Selection :=
  if (includes ++ excludes).any (Pattern.listsNull root) then none
  else some (t.select root includes excludes)

end FileTree
end UsingStyle
