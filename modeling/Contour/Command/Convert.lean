import Contour.Command.Outcome

/-!
# Converting and executing a file

The main command loads the program in a file and writes it as deltas or as assembly, or executes it.
Its flags count before the settings of the project, and the last of several flags for one option
counts.
-/

namespace Contour.Command

open Files

/-- The flags of the main command. -/
def mainFlags : List Flag :=
  Flag.pair "input-type" "i" ""
    "Input type: p (Fython code), d (deltas), a (assembly). Default p." ++
  Flag.pair "output-type" "o" ""
    "Output type: d (deltas), a (assembly), e (execute). Default e." ++
  Flag.pair "program-input" "I" ""
    "File to read program input from when executing (default stdin)" ++
  Flag.pair "program-output" "O" ""
    "File to write program output to when executing (default stdout)" ++
  Flag.pair "output-format" "f" "" "Program I/O format: char or number. Default char." ++
  Flag.pair "config" "c" ""
    "Configuration file (default: fython.toml found upward from the working directory)" ++
  [verbosityFlag, ⟨"trace", .switch false, "Log every executed instruction"⟩]

/-- The usage of the main command. -/
def mainUsage : String :=
  "Usage: fython [options] input_path [output_path]\n" ++
  "       fython lsp [-v]\n" ++
  "       fython store [-c config] put|get|list|rm|run ...\n\n" ++
  "Interprets, translates and runs Fython programs.\n\n" ++
  "Options:\n" ++ usageOf mainFlags ++
  "\nExamples:\n" ++
  "  fython prog.py                    # Run Fython code\n" ++
  "  fython -o a prog.py prog.fya      # Translate code to assembly\n" ++
  "  fython -i a -o d prog.fya p.fyc   # Assemble to binary deltas\n" ++
  "  fython -i d -f number p.fyc       # Run deltas with numeric I/O\n"

/-- The options with those that flags set. -/
def Options.override (o : Options) (p : Parsed) : Options where
  inputType := (p.last? ["input-type", "i"]).getD o.inputType
  outputType := (p.last? ["output-type", "o"]).getD o.outputType
  outputFormat := (p.last? ["output-format", "f"]).getD o.outputFormat
  programInput := (p.last? ["program-input", "I"]).getD o.programInput
  programOutput := (p.last? ["program-output", "O"]).getD o.programOutput
  trace := (p.lastTruth? "trace").getD o.trace

/-- Refuses unknown kinds and formats, and gives the kind of output. -/
def Options.check (o : Options) : Except String OutputKind := do
  let _ ← InputKind.ofName o.inputType
  let kind ← OutputKind.ofName o.outputType
  match Format.ofName? o.outputFormat with
  | some _ => return kind
  | none => throw ("output format " ++ Text.quoted o.outputFormat ++ ": want char or number")

variable {m : Type → Type} [Monad m]

/-- Writes a loaded program as deltas, to a file or to the standard output. -/
def showDeltas (host : Host m) (output : String) (p : Loaded) : m Report :=
  match p.deltas with
  | .error message => return .failed message
  | .ok ds =>
    if output = "" then return { output := String.ofList (DeltaFile.Text.write ds) }
    else return .ofResult (← Loaded.writeDeltas host output ds)

/-- Writes a loaded program as assembly, to a file or to the standard output. -/
def showAssembly (host : Host m) (output : String) (p : Loaded) : m Report := do
  if output = "" then return { output := p.assembly }
  else
    match ← host.write output (Utf8.encode p.assembly.toList) with
    | .ok () => return {}
    | .error failure => return .failed ("writing " ++ output ++ ": " ++ failure.message)

/-- Loads the program in a file and does with it what is asked. -/
def convert (host : Host m) (o : Options) (kind : OutputKind) (input output : String) :
    m Report := do
  match ← Loaded.load host input o.inputType with
  | .error message => return .failed message
  | .ok p =>
    match kind with
    | .deltas => showDeltas host output p
    | .assembly => showAssembly host output p
    | .execution => execute host o p.instructions

/-- The main command after its flags. -/
def convertWith (host : Host m) (p : Parsed) (input output : String) : m Outcome := do
  match ← Settings.forCommand host ((p.last? ["config", "c"]).getD "") with
  | .error message => return .failed 1 message
  | .ok s =>
    let o := (Options.ofSettings s).override p
    match ← startLog host s.logPath? (verbosity s (p.count "v") o.trace) with
    | .error failure => return .noLog failure
    | .ok () =>
      match o.check with
      | .error message => return .failed 2 message
      | .ok kind => return .ofReport (← convert host o kind input output)

/-- The main command. -/
def runMain (host : Host m) (arguments : List String) : m Outcome :=
  match parseFlags mainFlags arguments with
  | .error .help => return { errors := mainUsage }
  | .error e => return .misused (e.message ++ mainUsage)
  | .ok p =>
    match p.arguments with
    | [input] => convertWith host p input ""
    | [input, output] => convertWith host p input output
    | _ => return .misused mainUsage

end Contour.Command
