/-! # Paths

A path is an anchor, which a relative path lacks, and a list of parts. Empty parts and `.` vanish
when a path is read, while `..` stays as it is written. Paths are ordered by their parts, each by
code points, so a directory comes before names that merely start like it.
-/

namespace UsingStyle

/-- Where a file or directory is: the names from the top of the file system down to it. -/
abbrev Location := List String

/-- A path. The anchor is `/`, or `//` where exactly two slashes lead, or empty for a relative
path. -/
structure Path where
  anchor : String
  parts : List String
  deriving DecidableEq, Repr, Inhabited

namespace Path

/-- The pieces between slashes. -/
def splitSlashes : List Char → List (List Char)
  | [] => [[]]
  | c :: cs =>
    if c == '/' then [] :: splitSlashes cs
    else
      match splitSlashes cs with
      | [] => [[c]]
      | piece :: pieces => (c :: piece) :: pieces

/-- The anchor of the path that a text spells. -/
def anchorOf (cs : List Char) : String :=
  match (cs.takeWhile (· == '/')).length with
  | 0 => ""
  | 2 => "//"
  | _ => "/"

/-- The path that a text spells. -/
def ofString (s : String) : Path :=
  let pieces := (splitSlashes s.toList).map String.ofList
  ⟨anchorOf s.toList, pieces.filter fun piece => piece != "" && piece != "."⟩

/-- The text of a path. -/
def text (p : Path) : String :=
  if p.anchor == "" && p.parts.isEmpty then "." else p.anchor ++ "/".intercalate p.parts

/-- The path with one more part. -/
def push (p : Path) (part : String) : Path :=
  { p with parts := p.parts ++ [part] }

/-- The path `q` as seen from `p`. -/
def join (p q : Path) : Path :=
  if q.anchor == "" then { p with parts := p.parts ++ q.parts } else q

/-- One step of resolving a path: `..` goes up, and stays at the top. -/
def resolveStep (location : Location) (part : String) : Location :=
  if part == ".." then location.dropLast else location ++ [part]

/-- Where an absolute path leads to when all its directories exist. -/
def location (p : Path) : Location :=
  p.parts.foldl resolveStep []

/-- What paths are ordered by. The anchor of an absolute path counts as its first part. -/
def key (p : Path) : List String :=
  if p.anchor == "" then p.parts else p.anchor :: p.parts

/-- Adds a path to a list of paths in increasing order, unless it is there already. -/
def insert (p : Path) : List Path → List Path
  | [] => [p]
  | q :: qs =>
    if p = q then q :: qs
    else if p.key < q.key then p :: q :: qs
    else q :: insert p qs

/-- The paths in increasing order, each once. -/
def sortUnique (ps : List Path) : List Path :=
  ps.foldr insert []

end Path
end UsingStyle
