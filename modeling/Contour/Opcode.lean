import Contour.Delta

/-!
# The instruction table

The sixteen operations of the machine. Each has a code, a mnemonic, a key (the index delta and the
weight residue that select it), and, if it takes an argument, the one it has when none is written.
`Opcode.ofDelta?` and `Opcode.ofName?` invert the table.
-/

namespace Contour

/-- An operation of the stack machine. -/
inductive Opcode where
  | print | read | copy | jmpz | jmpnz | place | pick
  | push | pop | add | sub | mul | div | mod | pow | abs
deriving DecidableEq, Repr, Inhabited

namespace Opcode

/-- One line of the instruction table. -/
structure Entry where
  name : String
  key : Delta
  takesArgument : Bool
  defaultArgument : Int
  doc : String
deriving DecidableEq, Repr

/-- The table line of an operation. -/
def entry : Opcode → Entry
  | print => ⟨"print", ⟨-1, 1⟩, true, 1, "pop and write up to k values, top first"⟩
  | read => ⟨"read", ⟨-1, -1⟩, true, 1, "read k values and push them"⟩
  | copy => ⟨"copy", ⟨-1, 2⟩, true, 2, "pop the top and push k copies of it"⟩
  | jmpz => ⟨"jmpz", ⟨-1, 3⟩, true, 1, "jump k instructions if the zero flag is set"⟩
  | jmpnz => ⟨"jmpnz", ⟨-1, -3⟩, true, 1, "jump k instructions if the zero flag is clear"⟩
  | place => ⟨"place", ⟨-1, 4⟩, true, 1, "pop the top and insert it k positions down"⟩
  | pick => ⟨"pick", ⟨-1, -4⟩, true, 1, "move the element k positions down to the top"⟩
  | push => ⟨"push", ⟨1, 1⟩, true, 0, "push k"⟩
  | pop => ⟨"pop", ⟨1, -1⟩, true, 1, "remove the top k values"⟩
  | add => ⟨"add", ⟨1, 2⟩, false, 0, "pop two, push their sum"⟩
  | sub => ⟨"sub", ⟨1, -2⟩, false, 0, "pop two, push below minus top"⟩
  | mul => ⟨"mul", ⟨1, 3⟩, false, 0, "pop two, push their product"⟩
  | div => ⟨"div", ⟨1, -3⟩, false, 0, "pop two, push below divided by top (floored)"⟩
  | mod => ⟨"mod", ⟨1, 4⟩, false, 0, "pop two, push below modulo top (floored)"⟩
  | pow => ⟨"pow", ⟨1, -4⟩, false, 0, "pop two, push below raised to top"⟩
  | abs => ⟨"abs", ⟨1, 5⟩, false, 0, "pop one, push its absolute value"⟩

/-- The mnemonic of an operation. -/
def name (op : Opcode) : String := op.entry.name

/-- The key delta of an operation. -/
def key (op : Opcode) : Delta := op.entry.key

/-- Whether a number may follow the operation. -/
def takesArgument (op : Opcode) : Bool := op.entry.takesArgument

/-- The argument meant when none is written. -/
def defaultArgument (op : Opcode) : Int := op.entry.defaultArgument

/-- Whether the operation may move the instruction pointer elsewhere than to the next
instruction. -/
def isJump : Opcode → Bool
  | jmpz | jmpnz => true
  | _ => false

/-- The number of an operation: input, output and control from `0x10`, stack and arithmetic from
`0x20`. -/
def code : Opcode → UInt8
  | print => 0x10
  | read => 0x11
  | copy => 0x12
  | jmpz => 0x13
  | jmpnz => 0x14
  | place => 0x15
  | pick => 0x16
  | push => 0x20
  | pop => 0x21
  | add => 0x22
  | sub => 0x23
  | mul => 0x24
  | div => 0x25
  | mod => 0x26
  | pow => 0x27
  | abs => 0x28

/-- All operations in the order of their codes. -/
def all : List Opcode :=
  [print, read, copy, jmpz, jmpnz, place, pick, push, pop, add, sub, mul, div, mod, pow, abs]

/-- The operation with a code. -/
def ofCode? (c : UInt8) : Option Opcode := all.find? (·.code == c)

/-- The operation with a mnemonic. -/
def ofName? (s : String) : Option Opcode := all.find? (·.name == s)

/-- The operation that a delta selects, its weight taken by its residue. -/
def ofDelta? (d : Delta) : Option Opcode :=
  all.find? (·.key == ⟨d.index, Delta.residue d.weight⟩)

/-- The table line shown for a code; a code without an operation has a line of its own. -/
def entryOfCode (c : UInt8) : Entry :=
  match ofCode? c with
  | some op => op.entry
  | none =>
    let digits := (Decimal.hex 2 c.toNat).map Char.toUpper
    ⟨"UNKNOWN(0x" ++ String.ofList digits ++ ")", ⟨0, 0⟩, false, 0, ""⟩

end Opcode

end Contour
