import Contour.Command.Line
import Std.Time.DateTime.Timestamp

/-!
# The program

The command line on the files, the streams and the clock of the machine that it runs on.
-/

namespace Contour.Native

open Files

/-- The cause of an error of the machine. -/
def causeOf (e : IO.Error) : Cause :=
  match e with
  | .noFileOrDirectory .. => .missing
  | .permissionDenied .. => .denied
  | .inappropriateType _ code _ => if code = 20 then .notDirectory else .isDirectory
  | .alreadyExists .. => .taken
  | .invalidArgument _ code _ => if code = 36 then .tooLong else .invalid
  | _ => .invalid

/-- Carries out an action on a path, with its failure as a value. -/
def attempt {α : Type} (action : Action) (path : String) (act : IO α) : IO (Except Failure α) := do
  try return .ok (← act)
  catch e => return .error ⟨action, path, causeOf e⟩

/-- Reads a file. A directory can be opened, and reading from it fails. -/
def readFile (path : String) : IO (Except Failure (List UInt8)) := do
  match ← attempt .opening path (IO.FS.readBinFile path) with
  | .ok bytes => return .ok bytes.toList
  | .error failure =>
    if failure.cause = .isDirectory then return .error { failure with action := .reading }
    else return .error failure

/-- Reads a stream to its end. -/
partial def readAll (stream : IO.FS.Stream) (before : ByteArray) : IO ByteArray := do
  let chunk ← stream.read 65536
  if chunk.isEmpty then return before else readAll stream (before ++ chunk)

/-- Whether a path leads to something. -/
def leadsSomewhere (path : String) : IO Bool := do
  try
    let _ ← IO.FS.realPath path
    return true
  catch _ => return false

/-- Makes the directory of a path unless it is there. -/
def makeDirectory (path : String) : IO (Except Failure Unit) := do
  if !(← leadsSomewhere path) then attempt .makingDirectory path (IO.FS.createDir path)
  else if ← (← IO.FS.realPath path).isDir then return .ok ()
  else return .error ⟨.makingDirectory, path, .notDirectory⟩

/-- Makes the directories of paths, one after another. -/
def makeDirectories : List String → IO (Except Failure Unit)
  | [] => return .ok ()
  | path :: rest => do
    match ← makeDirectory path with
    | .ok () => makeDirectories rest
    | .error failure => return .error failure

/-- Whether two paths lead to one place. -/
def leadToOne (path path' : String) : IO Bool := do
  try return (← IO.FS.realPath path) == (← IO.FS.realPath path')
  catch _ => return false

/-- A random identifier: its version is four, and its variant the usual one. -/
def randomId : IO Uuid := do
  let digits := (← IO.getRandomBytes 16).toList.flatMap fun b => [b.toNat / 16, b.toNat % 16]
  return ⟨(digits.set 12 4).modify 16 fun d => 8 + d % 4⟩

/-- The machine as a host. -/
def machineHost : Host IO where
  workingDirectory := return (← IO.currentDir).toString
  read := readFile
  write path bytes := attempt .opening path (IO.FS.writeBinFile path ⟨bytes.toArray⟩)
  isThere := leadsSomewhere
  isSame := leadToOne
  makeDirectories path := makeDirectories (Tree.waypoints "" (Tree.segments path))
  input := return (← readAll (← IO.getStdin) .empty).toList
  freshId := randomId
  now := return (← Std.Time.Timestamp.now).toSecondsSinceUnixEpoch.val

/-- Carries out a command line and gives its exit status. -/
def run (arguments : List String) : IO UInt32 := do
  let serve := return some "no editor can be served on these streams"
  let outcome ← Command.run machineHost serve arguments
  (← IO.getStdout).putStr outcome.output
  (← IO.getStderr).putStr outcome.errors
  return UInt32.ofNat outcome.status

end Contour.Native

/-- The program. -/
def main (arguments : List String) : IO UInt32 := Contour.Native.run arguments
