import Contour.Text.Pieces

/-!
# Paths

Paths as text with slashes. `Path.clean` gives the shortest path that names the same place: no empty
and no dot segments, and no segment before a double dot. `Path.join`, `Path.directory`, `Path.base`
and `Path.extension` take paths together and apart.
-/

namespace Contour.Path

/-- The segments of a path between slashes. -/
def segments (p : List Char) : List (List Char) := Text.pieces '/' p

/-- Whether a path starts at the root. -/
def isAbsolute (p : String) : Bool := p.toList.head? == some '/'

/-- Adds a segment to the segments before it, the latest first. -/
def pushSegment (rooted : Bool) (before : List (List Char)) (s : List Char) : List (List Char) :=
  if s = [] ∨ s = ['.'] then before
  else if s = ['.', '.'] then
    match before with
    | [] => if rooted then [] else [s]
    | t :: outer => if t = ['.', '.'] then s :: before else outer
  else s :: before

/-- The segments that are left of a path. -/
def cleanSegments (p : String) : List (List Char) :=
  ((segments p.toList).foldl (pushSegment (isAbsolute p)) []).reverse

/-- Segments with slashes between them. -/
def joinSegments (ss : List (List Char)) : List Char := List.intercalate ['/'] ss

/-- The shortest path to the same place. -/
def clean (p : String) : String :=
  let body := joinSegments (cleanSegments p)
  if isAbsolute p then String.ofList ('/' :: body)
  else if body.isEmpty then "." else String.ofList body

/-- Two paths one after the other, cleaned; an empty first path does not count. -/
def join (a b : String) : String :=
  if a = "" then (if b = "" then "" else clean b) else clean (a ++ "/" ++ b)

/-- The part of a path after its last slash. -/
def afterSlash (p : List Char) : List Char := (p.reverse.takeWhile (· != '/')).reverse

/-- The part of a path up to its last slash. -/
def upToSlash (p : List Char) : List Char := (p.reverse.dropWhile (· != '/')).reverse

/-- The directory that a path lies in. -/
def directory (p : String) : String := clean (String.ofList (upToSlash p.toList))

/-- The last segment of a path. -/
def base (p : String) : String :=
  if p = "" then "."
  else
    let stripped := (p.toList.reverse.dropWhile (· == '/')).reverse
    if stripped.isEmpty then "/" else String.ofList (afterSlash stripped)

/-- The part of the last segment from its last dot on. -/
def extension (p : String) : String :=
  let segment := afterSlash p.toList
  if segment.contains '.' then
    String.ofList ('.' :: (segment.reverse.takeWhile (· != '.')).reverse)
  else ""

/-- The absolute form of a path in a working directory. -/
def absolute (workingDirectory p : String) : String :=
  if isAbsolute p then clean p else join workingDirectory p

/-- The lists that a list starts with, the longest first. -/
def starts {α : Type} : List α → List (List α)
  | [] => [[]]
  | a :: rest => (starts rest).map (a :: ·) ++ [[]]

/-- An absolute path and the directories above it, up to the root. -/
def ancestors (p : String) : List String :=
  (starts (cleanSegments p)).map fun ss => String.ofList ('/' :: joinSegments ss)

end Contour.Path
