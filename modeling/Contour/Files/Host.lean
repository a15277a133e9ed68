import Contour.Files.Tree
import Contour.Uuid

/-!
# Hosts

A command runs on a host: it finds its files there, its standard input, the time, and fresh
identifiers. A host can be anything that gives these, in a monad of its own. `Workspace.host` is the
host whose whole state is a value: a file tree, a place in it to work at, an input, a clock and a
counter.
-/

namespace Contour.Files

/-- What a command needs from the world. -/
structure Host (m : Type → Type) where
  /-- The absolute path of the working directory. -/
  workingDirectory : m String
  /-- Reads a file. -/
  read : (path : String) → m (Except Failure (List UInt8))
  /-- Writes a file, over what it held. -/
  write : (path : String) → List UInt8 → m (Except Failure Unit)
  /-- Whether a path leads to something. -/
  isThere : (path : String) → m Bool
  /-- Whether two paths lead to one place. -/
  isSame : (path path' : String) → m Bool
  /-- Makes a directory and all directories on the way to it. -/
  makeDirectories : (path : String) → m (Except Failure Unit)
  /-- The standard input. -/
  input : m (List UInt8)
  /-- An identifier that has not been used. -/
  freshId : m Uuid
  /-- The seconds since the start of the year 1970. -/
  now : m Int

/-- A world of its own to run commands in. -/
structure Workspace where
  tree : Tree := {}
  working : Place := []
  input : List UInt8 := []
  clock : Int := 0
  /-- The number of the next fresh identifier. -/
  next : Nat := 0

namespace Workspace

/-- Changes the tree, unless that fails. -/
def change (f : Tree → Place → Except Failure Tree) : StateM Workspace (Except Failure Unit) := do
  let w ← get
  match f w.tree w.working with
  | .error failure => return .error failure
  | .ok tree =>
    set { w with tree }
    return .ok ()

/-- The host of a workspace. -/
def host : Host (StateM Workspace) where
  workingDirectory := do return "/" ++ String.intercalate "/" (← get).working
  read path := do let w ← get; return w.tree.read w.working path
  write path bytes := change fun t working => t.write working path bytes
  isThere path := do let w ← get; return w.tree.isThere w.working path
  isSame path path' := do let w ← get; return w.tree.isSame w.working path path'
  makeDirectories path := change fun t working => t.makeDirectories working path
  input := do return (← get).input
  freshId := do
    let w ← get
    set { w with next := w.next + 1 }
    return Uuid.ofNat w.next
  now := do return (← get).clock

end Workspace

end Contour.Files
