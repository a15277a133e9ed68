import Contour.Files.Host
import Contour.Settings.Basic

/-!
# Finding settings

Settings are in a configuration file. `Settings.ofFile` reads one, and `Settings.nearest` takes the
one in the nearest directory at or above a directory. Once such a file is there it counts, even if
it cannot be read.
-/

namespace Contour.Settings

open Files

variable {m : Type → Type} [Monad m]

/-- The name of the configuration file of a project. -/
def configurationName : String := "fython.toml"

/-- The settings in the bytes of a configuration file, or the message why there are none. -/
def ofBytes (path directory : String) (bytes : List UInt8) : Except String Settings :=
  match (Toml.Document.parse? bytes).bind ofDocument? with
  | none => .error ("parse error in " ++ path ++ ": malformed document")
  | some s =>
    let s := { s with directory }.withDefaults
    match s.check with
    | .ok () => .ok s
    | .error message => .error (path ++ ": " ++ message)

/-- The settings in a file. -/
def ofFile (host : Host m) (path : String) : m (Except String Settings) := do
  match ← host.read path with
  | .error failure => return .error ("cannot read " ++ path ++ ": " ++ failure.message)
  | .ok bytes =>
    let working ← host.workingDirectory
    return ofBytes path (Path.absolute working (Path.directory path)) bytes

/-- The settings in a directory. -/
def ofDirectory (host : Host m) (directory : String) : m (Except String Settings) :=
  ofFile host (Path.join directory configurationName)

/-- The settings in the first of some directories that has any. -/
def firstIn (host : Host m) : List String → m (Except String (Option Settings))
  | [] => return .ok none
  | d :: ds => do
    if ← host.isThere (Path.join d configurationName) then return (← ofDirectory host d).map some
    else firstIn host ds

/-- The settings in the nearest directory at or above a directory. -/
def nearest (host : Host m) (directory : String) : m (Except String (Option Settings)) := do
  firstIn host (Path.ancestors (Path.absolute (← host.workingDirectory) directory))

/-- The settings that count: those in a given file, or those found from the working directory, or
else the defaults. -/
def forCommand (host : Host m) (path : String) : m (Except String Settings) := do
  if path ≠ "" then ofFile host path
  else
    let working ← host.workingDirectory
    match ← nearest host working with
    | .error message => return .error message
    | .ok (some s) => return .ok s
    | .ok none => return .ok (default working)

end Contour.Settings
