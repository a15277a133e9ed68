import Contour.Command.Execution
import Contour.Command.Flags
import Contour.Settings.Find

/-!
# Outcomes of commands

What all commands have in common: the outcome with an exit status and the texts on the two outputs,
the configuration file and its settings, and the log file.
-/

namespace Contour.Command

open Files

/-- The outcome of a command. -/
structure Outcome where
  status : Nat := 0
  /-- The text on the standard output. -/
  output : String := ""
  /-- The text on the standard error. -/
  errors : String := ""
deriving DecidableEq, Repr

namespace Outcome

/-- The outcome of a failure with a status. -/
def failed (status : Nat) (message : String) : Outcome :=
  { status, errors := "Error: " ++ message ++ "\n" }

/-- The outcome of a command that was written wrongly. -/
def misused (usage : String) : Outcome := { status := 2, errors := usage }

/-- The outcome of a report. -/
def ofReport (r : Report) : Outcome :=
  match r.failure with
  | none => { output := r.output }
  | some message => { failed 1 message with output := r.output }

/-- The outcome of a result. -/
def ofResult (r : Except String String) : Outcome :=
  match r with
  | .ok output => { output }
  | .error message => failed 1 message

end Outcome

/-- The flag that raises the verbosity of the log. -/
def verbosityFlag : Flag := ⟨"v", .counter, "Increase log verbosity (repeatable)"⟩

/-- The verbosity below which nothing is logged at all. -/
def silence : Int64 := -4

/-- The verbosity at which everything is logged. -/
def fullVerbosity : Int64 := 2

/-- The verbosity of a command. -/
def verbosity (s : Settings) (extra : Nat) (trace : Bool) : Int64 :=
  let v := s.verbosity + Int64.ofNat extra
  if trace && v < fullVerbosity then fullVerbosity else v

variable {m : Type → Type} [Monad m]

/-- Makes a log file unless it is there or nothing is logged. -/
def startLog (host : Host m) (path? : Option String) (v : Int64) : m (Except Failure Unit) :=
  match path? with
  | none => return .ok ()
  | some path => do
    if v ≤ silence then return .ok ()
    else
      match ← host.read path with
      | .ok _ => return .ok ()
      | .error ⟨_, _, .missing⟩ => host.write path []
      | .error failure => return .error { failure with action := .opening }

/-- The outcome when the log file cannot be made. -/
def Outcome.noLog (failure : Failure) : Outcome :=
  { status := 1, errors := "log file error: " ++ failure.message ++ "\n" }

end Contour.Command
