import Contour.Path

/-!
# File trees

A file tree says which places hold directories and which hold files. A path is followed from a
working directory segment by segment, and every place on the way has to be a directory. On top of
that stand reading a file (`Tree.read`), writing one (`Tree.write`) and making directories
(`Tree.makeDirectories`).
-/

namespace Contour.Files

/-- Why something cannot be done with a file. -/
inductive Cause where
  | missing
  | notDirectory
  | isDirectory
  | denied
  /-- Something else is there. -/
  | taken
  /-- A name or the whole path is too long. -/
  | tooLong
  /-- The path cannot be one. -/
  | invalid
deriving DecidableEq, Repr

/-- The wording of a cause. -/
def Cause.message : Cause → String
  | missing => "no such file or directory"
  | notDirectory => "not a directory"
  | isDirectory => "is a directory"
  | denied => "permission denied"
  | taken => "file exists"
  | tooLong => "file name too long"
  | invalid => "invalid argument"

/-- What was being done with a file. -/
inductive Action where
  | opening
  | reading
  | makingDirectory
deriving DecidableEq, Repr

/-- The wording of an action. -/
def Action.message : Action → String
  | opening => "open"
  | reading => "read"
  | makingDirectory => "mkdir"

/-- A failed action on a path. -/
structure Failure where
  action : Action
  path : String
  cause : Cause
deriving DecidableEq, Repr

/-- The wording of a failure. -/
def Failure.message (f : Failure) : String :=
  f.action.message ++ " " ++ f.path ++ ": " ++ f.cause.message

/-- A place in the tree: the names on the way from the root. -/
abbrev Place := List String

/-- What a place holds. -/
inductive Entry where
  | directory
  | file (bytes : List UInt8)
  /-- A device that is always empty and forgets what is written to it. -/
  | sink
deriving DecidableEq, Repr

/-- A file tree: what each place holds. The root is always a directory. -/
structure Tree where
  entries : List (Place × Entry) := []
deriving DecidableEq, Repr

namespace Tree

/-- What a place holds. -/
def get? (t : Tree) (p : Place) : Option Entry :=
  if p = [] then some .directory else (t.entries.find? (·.1 == p)).map (·.2)

/-- Puts something in a place. -/
def put (t : Tree) (p : Place) (e : Entry) : Tree :=
  if t.entries.any (·.1 == p) then
    ⟨t.entries.map fun old => if old.1 == p then (p, e) else old⟩
  else ⟨t.entries ++ [(p, e)]⟩

/-! ## Following paths -/

/-- The segments of a path. -/
def segments (path : String) : List String := (Path.segments path.toList).map String.ofList

/-- The length that a name can have, in bytes. -/
def nameLimit : Nat := 255

/-- The length that a path has to stay below, in bytes. -/
def pathLimit : Nat := 4096

/-- Follows one segment from a place, which has to be a directory. -/
def step (t : Tree) (here : Place) (s : String) : Except Cause Place :=
  match t.get? here with
  | none => .error .missing
  | some .directory =>
    if s = "" ∨ s = "." then .ok here
    else if s = ".." then .ok here.dropLast
    else if nameLimit < s.utf8ByteSize then .error .tooLong
    else .ok (here ++ [s])
  | some _ => .error .notDirectory

/-- Follows segments from a place. -/
def walk (t : Tree) : Place → List String → Except Cause Place
  | here, [] => .ok here
  | here, s :: rest =>
    match t.step here s with
    | .error e => .error e
    | .ok next => t.walk next rest

/-- Where a path starts. -/
def origin (working : Place) (path : String) : Place := if Path.isAbsolute path then [] else working

/-- Why a text cannot be followed as a path in any tree. -/
def fault? (path : String) : Option Cause :=
  if path = "" then some .missing
  else if path.toList.contains (Char.ofNat 0) then some .invalid
  else if pathLimit ≤ path.utf8ByteSize then some .tooLong
  else none

/-- Follows a path up to what is left of it. -/
def locateAs (t : Tree) (working : Place) (path left : String) : Except Cause Place :=
  match fault? path with
  | some cause => .error cause
  | none => t.walk (origin working path) (segments left)

/-- The place of a path; nothing need be there yet. -/
def locate (t : Tree) (working : Place) (path : String) : Except Cause Place :=
  t.locateAs working path path

/-- A path without the slashes at its end. -/
def withoutSlashes (path : String) : String :=
  String.ofList (path.toList.reverse.dropWhile (· == '/')).reverse

/-- The place of a path, whose slashes at the end do not ask for a directory. -/
def locateBare (t : Tree) (working : Place) (path : String) : Except Cause Place :=
  t.locateAs working path (withoutSlashes path)

/-- Whether a path leads to something. -/
def isThere (t : Tree) (working : Place) (path : String) : Bool :=
  match t.locate working path with
  | .ok p => (t.get? p).isSome
  | .error _ => false

/-- Whether two paths lead to one place. -/
def isSame (t : Tree) (working : Place) (path path' : String) : Bool :=
  match t.locate working path, t.locate working path' with
  | .ok p, .ok p' => p == p'
  | _, _ => false

/-! ## Files and directories -/

/-- The bytes of a file. -/
def read (t : Tree) (working : Place) (path : String) : Except Failure (List UInt8) :=
  match t.locate working path with
  | .error cause => .error ⟨.opening, path, cause⟩
  | .ok p =>
    match t.get? p with
    | none => .error ⟨.opening, path, .missing⟩
    | some .directory => .error ⟨.reading, path, .isDirectory⟩
    | some (.file bytes) => .ok bytes
    | some .sink => .ok []

/-- Whether a path ends in a slash and therefore cannot name a file. -/
def endsInSlash (path : String) : Bool := path.toList.getLast? == some '/'

/-- The place that a file can be written to. -/
def target (t : Tree) (working : Place) (path : String) : Except Cause Place :=
  if endsInSlash path then
    match t.locateBare working path with
    | .error cause => .error cause
    | .ok _ => .error .isDirectory
  else
    match t.locate working path with
    | .error cause => .error cause
    | .ok p => if t.get? p = some .directory then .error .isDirectory else .ok p

/-- Writes a file, over what it held. -/
def write (t : Tree) (working : Place) (path : String) (bytes : List UInt8) : Except Failure Tree :=
  match t.target working path with
  | .error cause => .error ⟨.opening, path, cause⟩
  | .ok p => .ok (if t.get? p = some .sink then t else t.put p (.file bytes))

/-- Makes the directory of a path unless it is there. -/
def makeDirectory (t : Tree) (working : Place) (path : String) : Except Failure Tree :=
  match t.locateBare working path with
  | .error cause => .error ⟨.makingDirectory, path, cause⟩
  | .ok p =>
    match t.get? p with
    | none => .ok (t.put p .directory)
    | some .directory => .ok t
    | some _ =>
      .error ⟨.makingDirectory, path, if endsInSlash path then .taken else .notDirectory⟩

/-- The paths of the directories along segments, each but the last with a slash at its end; `before`
is what leads to the first one. -/
def waypoints (before : String) : List String → List String
  | [] => []
  | [s] => [before ++ s]
  | s :: rest =>
    let here := before ++ s ++ "/"
    here :: waypoints here rest

/-- Makes the directory of a path and all directories on the way to it. -/
def makeDirectories (t : Tree) (working : Place) (path : String) : Except Failure Tree :=
  (waypoints "" (segments path)).foldlM (fun t p => t.makeDirectory working p) t

end Tree

end Contour.Files
