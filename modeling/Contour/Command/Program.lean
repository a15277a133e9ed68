import Contour.DeltaFile.Basic
import Contour.Files.Host
import Contour.Machine
import Contour.Settings.Basic
import Contour.Source
import Contour.Stream

/-!
# Loaded programs

A program comes from a program text, a delta file or an assembly file (`Loaded.load`). It can be
taken as deltas, as instructions, or as assembly text. An assembly file without lines is the empty
program.
-/

namespace Contour.Command

open Files

/-- What a program was loaded as. -/
inductive Content where
  | deltas (ds : List Delta)
  | assembly (lines : List (List Char))
deriving DecidableEq, Repr

/-- A program and its name. -/
structure Loaded where
  name : String
  content : Content
deriving DecidableEq, Repr

namespace Loaded

/-- The program as deltas, or the message why it cannot be assembled. -/
def deltas (p : Loaded) : Except String (List Delta) :=
  match p.content with
  | .deltas ds => .ok ds
  | .assembly lines =>
    (Stream.assemble (Assembly.ofLines lines)).mapError fun e => unknownMessage e.mnemonic e.line

/-- The program ready to be executed. -/
def instructions (p : Loaded) : List Instruction :=
  match p.content with
  | .deltas ds => Stream.decode ds
  | .assembly lines => Assembly.ofLines lines

/-- The program as assembly text. -/
def assembly (p : Loaded) : String :=
  match p.content with
  | .deltas ds => Stream.listing p.name ds
  | .assembly lines => Assembly.render (Assembly.ofLines lines)

/-- The name of the program in a file: the name of the file without its extension. -/
def nameOf (path : String) : String :=
  let base := (Path.base path).toList
  let extension := (Path.extension path).toList
  if extension.isSuffixOf base then String.ofList (base.take (base.length - extension.length))
  else Path.base path

/-- The content of an assembly text. -/
def ofAssembly (text : List Char) : Content :=
  match Text.lines text with
  | [] => .deltas []
  | lines => .assembly lines

/-- The content of a file that is no delta file, or the message why there is none. -/
def ofText (path kind : String) (bytes : List UInt8) : Except String Content :=
  let text := Utf8.decode bytes
  match InputKind.ofName? kind with
  | some .source =>
    match Source.deltas text with
    | .ok ds => .ok (.deltas ds)
    | .error e => .error (path ++ ": " ++ e.message)
  | some .assembly => .ok (ofAssembly text)
  | _ => .error ("unknown input type " ++ Text.quoted kind)

variable {m : Type → Type} [Monad m]

/-- The program in a delta file. -/
def readDeltas (host : Host m) (path : String) : m (Except String (List Delta)) := do
  match ← host.read path with
  | .error failure => return .error ("deltafile: " ++ failure.message)
  | .ok bytes => return DeltaFile.decode path bytes

/-- Writes a delta file. -/
def writeDeltas (host : Host m) (path : String) (ds : List Delta) : m (Except String Unit) := do
  match ← host.write path (DeltaFile.encode path ds) with
  | .error failure => return .error ("deltafile: " ++ failure.message)
  | .ok () => return .ok ()

/-- Loads the program in a file of the kind with a name. -/
def load (host : Host m) (path kind : String) : m (Except String Loaded) := do
  if InputKind.ofName? kind = some .deltas then
    return (← readDeltas host path).map fun ds => ⟨nameOf path, .deltas ds⟩
  else
    match ← host.read path with
    | .error failure => return .error ("can't open '" ++ path ++ "': " ++ failure.message)
    | .ok bytes => return (ofText path kind bytes).map fun content => ⟨nameOf path, content⟩

end Loaded

end Contour.Command
