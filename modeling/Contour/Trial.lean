import Contour.Machine

/-!
# Trial runs

A trial run executes a program on a fresh machine with a given input and a budget of steps, and
reports the output, the stack, the number of steps and the error. A runner carries out trial runs
until it is stopped.
-/

namespace Contour

/-- What came of a trial run. -/
structure Trial where
  output : String := ""
  /-- The stack, bottom first. -/
  stack : List Int := []
  steps : Nat := 0
  error : Option String := none
deriving DecidableEq, Repr

namespace Trial

/-- Runs a program on an input; a budget of zero is unlimited. -/
def run (budget : Nat) (format : Format) (input : List Char) (program : List Instruction) : Trial :=
  let run := Machine.execute Console.channel program budget { format, input }
  { output := run.machine.world.output
    stack := run.machine.stack.reverse
    steps := run.steps
    error := run.fault?.map Fault.message }

/-- What comes of a trial run after the runner was stopped. -/
def stopped : Trial := { error := some "run worker stopped" }

end Trial

/-- A runner of trials: its budget, and whether it still runs. -/
structure Runner where
  budget : Nat
  isRunning : Bool := true
deriving DecidableEq, Repr

namespace Runner

/-- Carries out a trial run. -/
def run (r : Runner) (format : Format) (input : List Char) (program : List Instruction) : Trial :=
  if r.isRunning then Trial.run r.budget format input program else Trial.stopped

/-- Stops the runner for good. -/
def stop (r : Runner) : Runner := { r with isRunning := false }

end Runner

end Contour
