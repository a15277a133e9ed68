import Contour.Opcode
import Contour.Numeral

/-!
# Instructions

An instruction is a mnemonic with or without an argument. The mnemonic stays text: one that is not
in the table is noticed when it is assembled or executed, not before.
-/

namespace Contour

/-- One instruction of a program. -/
structure Instruction where
  mnemonic : String
  argument : Option Int := none
  /-- The line it was written on, counted from one, or zero when it was not written on a line. -/
  line : Nat := 0
  /-- The position of its first delta in the stream that it was read from. -/
  offset : Nat := 0
deriving DecidableEq, Repr, Inhabited

namespace Instruction

/-- The instruction as one line of assembly. -/
def text (i : Instruction) : String :=
  match i.argument with
  | some n => i.mnemonic ++ " " ++ Decimal.text n
  | none => i.mnemonic

/-- The operation that the mnemonic names. -/
def opcode? (i : Instruction) : Option Opcode := Opcode.ofName? i.mnemonic

end Instruction

end Contour
