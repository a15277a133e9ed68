import Contour.Outline
import Contour.Script.Check

/-!
# Program texts

A program text has to have a sound outline and has to be in the language of scripts; then its
program is the contour of its outline. `Source.scan` gives the significant lines and `Source.deltas`
the program.
-/

namespace Contour.Source

/-- What can be wrong with a program text. -/
inductive Cause where
  /-- The outline is unsound. -/
  | outline (flaw : Outline.Flaw)
  /-- The text is not in the language. -/
  | script (remark : Script.Remark)
deriving DecidableEq, Repr

/-- The wording of a cause. -/
def Cause.message : Cause → String
  | outline flaw => flaw.message
  | script .invalid => Script.Remark.invalid.message
  | script remark => Script.Remark.invalid.message ++ ": " ++ remark.message

/-- What is wrong with a program text, and on which line. -/
structure Error where
  line : Nat
  cause : Cause
deriving DecidableEq, Repr

/-- The wording of an error. -/
def Error.message (e : Error) : String := "line " ++ Decimal.text e.line ++ ": " ++ e.cause.message

/-- A line number within the outline: one before the first or past the last significant line becomes
that last one. -/
def clip (last n : Nat) : Nat := if 1 ≤ n ∧ n ≤ last then n else last

/-- Checks that a text is in the language; `last` is the number of its last significant line. -/
def checkScript (text : List Char) (last : Nat) : Except Error Unit :=
  match Script.check (Text.unifyLineEnds text) with
  | none => .ok ()
  | some finding => .error ⟨clip last finding.line, .script finding.remark⟩

/-- The significant lines of a program text. -/
def scan (text : List Char) : Except Error (List Outline.Line) :=
  match Outline.scan text with
  | .error e => .error ⟨e.line, .outline e.flaw⟩
  | .ok lines =>
    match lines.getLast? with
    | none => .ok []
    | some last => (checkScript text last.number).map fun _ => lines

/-- The program of a text. -/
def deltas (text : List Char) : Except Error (List Delta) :=
  (scan text).map fun lines => Delta.along (lines.map Outline.Line.shape)

end Contour.Source
