import Contour.Command.Keep
import Contour.Command.Convert

/-!
# The command line

The first argument decides between the command for editors, the command for the shelf, and the main
command.
-/

namespace Contour.Command

open Files

variable {m : Type → Type} [Monad m]

/-- The flags of the command for editors. -/
def editorFlags : List Flag :=
  [verbosityFlag, ⟨"log", .text "", "Log file (stdout carries the protocol, default stderr)"⟩]

/-- The command for editors; `serve` speaks with the editor, and gives a message if that fails. -/
def runEditor (host : Host m) (serve : m (Option String)) (arguments : List String) : m Outcome :=
  match parseFlags editorFlags arguments with
  | .error e => return .misused (e.message ++ plainUsage "fython lsp" editorFlags)
  | .ok p => do
    let log := (p.last? ["log"]).getD ""
    match ← startLog host (if log = "" then none else some log) (Int64.ofNat (p.count "v")) with
    | .error failure => return .noLog failure
    | .ok () =>
      match ← serve with
      | none => return {}
      | some message => return { status := 1, errors := "Server error: " ++ message ++ "\n" }

/-- Carries out a command line. -/
def run (host : Host m) (serve : m (Option String)) (arguments : List String) : m Outcome :=
  match arguments with
  | "lsp" :: rest => runEditor host serve rest
  | "store" :: rest => runKeep host rest
  | _ => runMain host arguments

end Contour.Command
