import Contour.Command.Program

/-!
# Executing programs

A program is executed with its input and its output in files, or else in the standard input and the
standard output. The output file is made anew before the program starts, and what the program has
written stays there when it fails. If both files are one, the program reads what it has written.
-/

namespace Contour.Command

open Files

/-- How programs are loaded, shown and executed, as texts. -/
structure Options where
  inputType : String
  outputType : String
  outputFormat : String
  programInput : String
  programOutput : String
  trace : Bool
deriving DecidableEq, Repr

/-- The options in the settings. -/
def Options.ofSettings (s : Settings) : Options :=
  ⟨s.inputType, s.outputType, s.outputFormat, s.programInput, s.programOutput, s.trace⟩

/-- What a command writes, and the message of its failure if it failed. -/
structure Report where
  output : String := ""
  failure : Option String := none
deriving DecidableEq, Repr

/-- The report of a failure without output. -/
def Report.failed (message : String) : Report := { failure := some message }

/-- The report on an action that writes nothing. -/
def Report.ofResult : Except String Unit → Report
  | .ok () => {}
  | .error message => .failed message

/-- The console for an input. A directory can be opened, and reading from it fails. -/
def consoleFor (format : Format) : Except Failure (List UInt8) → Except String Console
  | .ok bytes => .ok { format, input := Utf8.decode bytes }
  | .error failure =>
    if failure.action = .reading then .ok { format, input := [], failure := some failure.message }
    else .error ("program input: " ++ failure.message)

/-- Runs a program on a console to its end. -/
def runOn (channel : Channel Console) (c : Console) (program : List Instruction) :
    String × Option String :=
  let run := Machine.execute channel program 0 c
  (run.machine.world.output, run.fault?.map Fault.message)

variable {m : Type → Type} [Monad m]

/-- Executes a program with its output in a file. -/
def executeInto (host : Host m) (o : Options) (c : Console) (program : List Instruction) :
    m Report := do
  match ← host.write o.programOutput [] with
  | .error failure => return .failed ("program output: " ++ failure.message)
  | .ok () =>
    let loops ←
      if o.programInput = "" then pure false else host.isSame o.programInput o.programOutput
    let (output, failure) :=
      if loops then runOn Console.loopChannel { c with input := [] } program
      else runOn Console.channel c program
    let _ ← host.write o.programOutput (Utf8.encode output.toList)
    return { failure }

/-- Executes a program. -/
def execute (host : Host m) (o : Options) (program : List Instruction) : m Report := do
  match Format.ofName o.outputFormat with
  | .error message => return .failed message
  | .ok format =>
    let input ← if o.programInput = "" then .ok <$> host.input else host.read o.programInput
    match consoleFor format input with
    | .error message => return .failed message
    | .ok c =>
      if o.programOutput = "" then
        let (output, failure) := runOn Console.channel c program
        return { output, failure }
      else executeInto host o c program

end Contour.Command
