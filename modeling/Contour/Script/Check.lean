import Contour.Script.Rules

/-!
# Checking a text

`Script.check` says whether a text is in the language and obeys the rules about targets, strings and
arguments. If not, it gives a remark and the line on which reading stopped; a text that is wrong
only in a target, say, is read to its end. The latest remark counts.
-/

namespace Contour.Script

/-- The terminal of a lexeme. -/
def Lexeme.terminal (l : Lexeme) : Grammar.Terminal Sense :=
  ⟨l.symbol, if l.symbol = "STRING" then .string l.isBytes else .nothing⟩

/-- What is wrong with a text, and the line on which reading stopped. -/
structure Finding where
  line : Nat
  remark : Remark
deriving DecidableEq, Repr

/-- What is wrong with a text, if anything is. -/
def check (text : List Char) : Option Finding :=
  let ls := lexemes text
  let parser : Grammar.Parser Lexeme Sense Remark := ⟨[], none, ls, none, none⟩
  let (verdict, p) := parser.run automaton meaning Lexeme.terminal Lexeme.remark
    (1000 * (ls.length + 1))
  let line := (p.latest.map Lexeme.line).getD 0
  match verdict, p.remark with
  | .accepted, none => none
  | _, some remark => some ⟨line, remark⟩
  | .rejected, none =>
    let atEnd := (p.latest.map Lexeme.atEnd).getD true
    some ⟨line, if atEnd then .incomplete else .invalid⟩

end Contour.Script
