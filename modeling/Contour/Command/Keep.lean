import Contour.Calendar
import Contour.Command.Outcome
import Contour.Shelf.Storage

/-!
# Keeping programs on a shelf

The commands for the shelf of programs: putting a program there, getting one, listing all, removing
one and executing one. Whatever the subcommand is, the shelf is opened first.
-/

namespace Contour.Command

open Files

/-- The flags before the subcommand. -/
def keepFlags : List Flag :=
  Flag.pair "config" "c" "" "Configuration file" ++
  [⟨"db", .text "", "Database path (overrides [store].path)"⟩, verbosityFlag]

/-- The usage of the subcommands. -/
def keepUsage : String :=
  "Usage: fython store [-c config] [-db path] [put|get|list|rm|run] ...\n" ++
  "  put [-i p|d|a] <name> <path>   Save a program\n" ++
  "  get <name> [output_path]       Write a program's deltas\n" ++
  "  list                           List saved programs\n" ++
  "  rm <name>                      Delete a program\n" ++
  "  run [-I in] [-O out] [-f char|number] <name>\n"

/-- The flags of `put`. -/
def putFlags (o : Options) : List Flag :=
  Flag.pair "input-type" "i" o.inputType "Input type: p, d or a"

/-- The flags of `run`. -/
def runFlags (o : Options) : List Flag :=
  Flag.pair "program-input" "I" o.programInput "Program input file" ++
  Flag.pair "program-output" "O" o.programOutput "Program output file" ++
  Flag.pair "output-format" "f" o.outputFormat "Program I/O format: char or number" ++
  [⟨"trace", .switch o.trace, "Log every executed instruction"⟩]

/-- The start of a digest, as it is shown. -/
def shortHash (hash : String) : String :=
  String.ofList (Utf8.decode ((Utf8.encode hash.toList).take 12))

/-- The line that lists a program. -/
def listingLine (p : Program) : String :=
  let count := Decimal.int p.deltas.length
  String.ofList (Decimal.spacePadded 20 p.name.toList ++ ' ' ::
    (List.replicate (6 - count.length) ' ' ++ count)) ++ " deltas  " ++ shortHash p.hash ++ "  " ++
    Calendar.text p.created ++ "\n"

/-- The lines that list programs. -/
def listing : List Program → String
  | [] => "No stored programs\n"
  | ps => String.join (ps.map listingLine)

/-- A result whose error is put into words. -/
def worded {α : Type} (r : Except Shelf.Error α) : Except String α := r.mapError Shelf.Error.message

variable {m : Type → Type} [Monad m]

/-- Puts the program in a file on the shelf at a path. -/
def putProgram (host : Host m) (path : String) (shelf : Shelf) (kind name file : String) :
    m Outcome := do
  match (← Loaded.load host file kind).bind Loaded.deltas with
  | .error message => return .failed 1 message
  | .ok ds =>
    match worded (shelf.put (← host.freshId) (← host.now) name ds) with
    | .error message => return .failed 1 message
    | .ok (p, shelf) =>
      let _ ← Shelf.save host path shelf
      return { output := "Stored " ++ p.name ++ ": " ++ Decimal.text p.deltas.length ++
        " deltas, " ++ shortHash p.hash ++ "\n" }

/-- The subcommand `put`. -/
def runPut (host : Host m) (path : String) (shelf : Shelf) (o : Options) (arguments : List String) :
    m Outcome :=
  let flags := putFlags o
  match parseFlags flags arguments with
  | .error e => return .misused (e.message ++ plainUsage "fython store put" flags)
  | .ok p =>
    match p.arguments with
    | [name, file] =>
      putProgram host path shelf ((p.last? ["input-type", "i"]).getD o.inputType) name file
    | _ => return .misused "Usage: fython store put [-i p|d|a] <name> <path>\n"

/-- Writes a program from the shelf as deltas, to a file or to the standard output. -/
def getProgram (host : Host m) (shelf : Shelf) (name : String) (output : Option String) :
    m Outcome := do
  match worded (shelf.get name) with
  | .error message => return .failed 1 message
  | .ok p =>
    match output with
    | none => return { output := String.ofList (DeltaFile.Text.write p.deltas) }
    | some path => return .ofReport (.ofResult (← Loaded.writeDeltas host path p.deltas))

/-- The subcommand `rm`. -/
def runRemove (host : Host m) (path : String) (shelf : Shelf) : List String → m Outcome
  | [name] => do
    match worded (shelf.delete name) with
    | .error message => return .failed 1 message
    | .ok shelf =>
      let _ ← Shelf.save host path shelf
      return { output := "Deleted " ++ name ++ "\n" }
  | _ => return .misused "Usage: fython store rm <name>\n"

/-- The subcommand `run`. -/
def runKept (host : Host m) (shelf : Shelf) (o : Options) (arguments : List String) : m Outcome :=
  let flags := runFlags o
  match parseFlags flags arguments with
  | .error e => return .misused (e.message ++ plainUsage "fython store run" flags)
  | .ok p =>
    match p.arguments with
    | [name] =>
      match worded (shelf.get name) with
      | .error message => return .failed 1 message
      | .ok program => do
        let o := { o with
          outputFormat := (p.last? ["output-format", "f"]).getD o.outputFormat
          programInput := (p.last? ["program-input", "I"]).getD o.programInput
          programOutput := (p.last? ["program-output", "O"]).getD o.programOutput }
        return .ofReport (← execute host o (Stream.decode program.deltas))
    | _ => return .misused "Usage: fython store run [-I in] [-O out] [-f char|number] <name>\n"

/-- A subcommand on the shelf at a path. -/
def runSubcommand (host : Host m) (path : String) (shelf : Shelf) (o : Options) (name : String)
    (arguments : List String) : m Outcome :=
  match name, arguments with
  | "put", arguments => runPut host path shelf o arguments
  | "get", [name] => getProgram host shelf name none
  | "get", [name, output] => getProgram host shelf name (some output)
  | "get", _ => return .misused "Usage: fython store get <name> [output_path]\n"
  | "list", _ => return .ofResult ((worded shelf.list).map listing)
  | "rm", arguments => runRemove host path shelf arguments
  | "run", arguments => runKept host shelf o arguments
  | name, _ => return .misused ("Unknown store subcommand: " ++ name ++ "\n" ++ keepUsage)

/-- Opens the shelf and carries out a subcommand. -/
def keepWith (host : Host m) (p : Parsed) (name : String) (arguments : List String) :
    m Outcome := do
  match ← Settings.forCommand host ((p.last? ["config", "c"]).getD "") with
  | .error message => return .failed 1 message
  | .ok s =>
    match ← startLog host s.logPath? (verbosity s (p.count "v") false) with
    | .error failure => return .noLog failure
    | .ok () =>
      let db := (p.last? ["db"]).getD ""
      let path := if db = "" then s.shelfPath else db
      match ← Shelf.openAt host path with
      | .error e => return .failed 1 e.message
      | .ok shelf => runSubcommand host path shelf (Options.ofSettings s) name arguments

/-- The command for the shelf. -/
def runKeep (host : Host m) (arguments : List String) : m Outcome :=
  match parseFlags keepFlags arguments with
  | .error e => return .misused (e.message ++ plainUsage "fython store" keepFlags)
  | .ok p =>
    match p.arguments with
    | [] => return .misused keepUsage
    | name :: arguments => keepWith host p name arguments

end Contour.Command
