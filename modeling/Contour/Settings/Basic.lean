import Contour.Console
import Contour.Path
import Contour.Text.Case
import Contour.Toml.Document

/-!
# Settings

The settings of a project: what programs are read from, what is made of them, and where their input,
their output, the log and the shelf are. `Settings.ofDocument?` takes them from a configuration
document, `Settings.withDefaults` fills in what is missing, and `Settings.check` refuses unknown
kinds.
-/

namespace Contour

/-- What a program is read from. -/
inductive InputKind where
  /-- A program text. -/
  | source
  /-- A delta file. -/
  | deltas
  | assembly
deriving DecidableEq, Repr

/-- The kind of input with a name. -/
def InputKind.ofName? (name : String) : Option InputKind :=
  if name = "p" then some .source
  else if name = "d" then some .deltas
  else if name = "a" then some .assembly
  else none

/-- The kind of input with a name, or the message that there is none. -/
def InputKind.ofName (name : String) : Except String InputKind :=
  match ofName? name with
  | some kind => .ok kind
  | none => .error ("input type " ++ Text.quoted name ++ ": want p, d or a")

/-- What is made of a program. -/
inductive OutputKind where
  | deltas
  | assembly
  /-- The program is executed. -/
  | execution
deriving DecidableEq, Repr

/-- The kind of output with a name. -/
def OutputKind.ofName? (name : String) : Option OutputKind :=
  if name = "d" then some .deltas
  else if name = "a" then some .assembly
  else if name = "e" then some .execution
  else none

/-- The kind of output with a name, or the message that there is none. -/
def OutputKind.ofName (name : String) : Except String OutputKind :=
  match ofName? name with
  | some kind => .ok kind
  | none => .error ("output type " ++ Text.quoted name ++ ": want d, a or e")

/-- The settings of a project. -/
structure Settings where
  project : String := ""
  inputType : String := ""
  outputType : String := ""
  outputFormat : String := ""
  /-- The file that executed programs read, or nothing for the standard input. -/
  programInput : String := ""
  /-- The file that executed programs write, or nothing for the standard output. -/
  programOutput : String := ""
  trace : Bool := false
  verbosity : Int64 := 0
  logFile : String := ""
  shelf : String := ""
  /-- The directory that paths start from. -/
  directory : String := ""
deriving DecidableEq, Repr

namespace Settings

/-! ## Reading a document -/

/-- A text. -/
def text? : Toml.Node → Option String
  | .value (.string s) => some s
  | _ => none

/-- A whole number. -/
def integer? : Toml.Node → Option Int64
  | .value (.integer n) => some n
  | _ => none

/-- A truth value. -/
def bool? : Toml.Node → Option Bool
  | .value (.bool b) => some b
  | _ => none

/-- A way to set something from a node, for each name. -/
abbrev Setters := List (String × (Settings → Toml.Node → Option Settings))

/-- The settings in the table `project`. -/
def projectSetters : Setters :=
  [("name", fun s n => do return { s with project := ← text? n })]

/-- The settings in the table `run`. -/
def runSetters : Setters :=
  [("input-type", fun s n => do return { s with inputType := ← text? n }),
   ("output-type", fun s n => do return { s with outputType := ← text? n }),
   ("output-format", fun s n => do return { s with outputFormat := ← text? n }),
   ("program-input", fun s n => do return { s with programInput := ← text? n }),
   ("program-output", fun s n => do return { s with programOutput := ← text? n }),
   ("trace", fun s n => do return { s with trace := ← bool? n })]

/-- The settings in the table `log`. -/
def logSetters : Setters :=
  [("verbosity", fun s n => do return { s with verbosity := ← integer? n }),
   ("file", fun s n => do return { s with logFile := ← text? n })]

/-- The settings in the table `store`. -/
def shelfSetters : Setters :=
  [("path", fun s n => do return { s with shelf := ← text? n })]

/-- Applies each entry of a table for which there is a setter; names match in either case. -/
def apply (setters : Setters) (s : Settings) (es : Toml.Entries) : Option Settings :=
  es.foldlM (fun s e =>
    match setters.find? fun setter => Text.sameFolded setter.1 e.1 with
    | some (_, f) => f s e.2
    | none => some s) s

/-- Applies a table in the document. -/
def applyTable (setters : Setters) (s : Settings) : Toml.Node → Option Settings
  | .table es => apply setters s es
  | _ => none

/-- The tables of the document. -/
def tables : Setters :=
  [("project", applyTable projectSetters), ("run", applyTable runSetters),
   ("log", applyTable logSetters), ("store", applyTable shelfSetters)]

/-- The settings in a document; a setting of the wrong type is an error. -/
def ofDocument? (es : Toml.Entries) : Option Settings := apply tables {} es

/-! ## Defaults and checks -/

/-- Where the shelf is when no place is set. -/
def defaultShelf : String := Path.join ".fython" "programs.db"

/-- Fills in what is missing. -/
def withDefaults (s : Settings) : Settings :=
  let fill (value default : String) : String := if value = "" then default else value
  { s with
    inputType := fill s.inputType "p"
    outputType := fill s.outputType "e"
    outputFormat := fill s.outputFormat "char"
    shelf := fill s.shelf defaultShelf }

/-- The settings where there is no document. -/
def default (directory : String) : Settings := { directory : Settings }.withDefaults

/-- Refuses unknown kinds and formats. -/
def check (s : Settings) : Except String Unit := do
  let _ ← InputKind.ofName s.inputType
  let _ ← OutputKind.ofName s.outputType
  match Format.ofName? s.outputFormat with
  | some _ => return ()
  | none => throw ("run.output-format: unknown format " ++ Text.quoted s.outputFormat ++
      " (want char or number)")

/-! ## Paths -/

/-- A path in the settings, seen from the directory of the settings. -/
def resolve (s : Settings) (path : String) : String :=
  if Path.isAbsolute path then path else Path.join s.directory path

/-- The path of the shelf. -/
def shelfPath (s : Settings) : String := s.resolve s.shelf

/-- The path of the log file, if there is one. -/
def logPath? (s : Settings) : Option String :=
  if s.logFile = "" then none else some (s.resolve s.logFile)

end Settings

end Contour
