import Contour.Console
import Contour.Instruction

/-!
# The stack machine

The machine has a stack of whole numbers of any size, a zero flag and an instruction pointer.
Arguments that count, jump or point into the stack are first brought into a range of 64-bit words
(`toCount`), and everything computed from them is computed in such words. An operation that finds
too few values on the stack takes fixed defaults for them.

`Machine.step` executes one instruction, `Machine.execute` runs a program until it leaves its last
instruction, fails, or reaches a limit on the number of steps.
-/

namespace Contour

/-- Why a run fails. -/
inductive Fault where
  /-- The mnemonic is not in the table. -/
  | unknown (mnemonic : String) (line : Nat)
  /-- A division by zero, in the wide sense. -/
  | division (op : Opcode)
  /-- The channel failed at the instruction with this position. -/
  | channel (position : Nat) (instruction : Instruction) (error : ChannelError)
  /-- The run was cut short. -/
  | limit (steps : Nat)
deriving DecidableEq, Repr

/-- The message about a mnemonic that is not in the table. -/
def unknownMessage (mnemonic : String) (line : Nat) : String :=
  let what := "unknown instruction " ++ Text.quoted mnemonic
  if line = 0 then what else "line " ++ Decimal.text line ++ ": " ++ what

/-- The wording of a fault. -/
def Fault.message : Fault → String
  | unknown mnemonic line => unknownMessage mnemonic line
  | division .mod => "mod: integer modulo by zero"
  | division .pow => "pow: 0 cannot be raised to a negative power"
  | division op => op.name ++ ": integer division by zero"
  | channel position i error =>
    "instruction " ++ Decimal.text position ++ " (" ++ i.text ++ "): " ++ error.message
  | limit steps => "step limit of " ++ Decimal.text steps ++ " instructions reached"

/-- The state of the machine together with the state of the world. -/
structure Machine (σ : Type) where
  /-- The stack, top first. -/
  stack : List Int
  /-- The zero flag. -/
  zero : Bool
  /-- The instruction pointer. -/
  ip : Int
  world : σ

namespace Machine

variable {σ : Type}

/-- The machine before its first instruction. -/
def start (world : σ) : Machine σ := ⟨[], true, 0, world⟩

/-! ## Words -/

/-- The greatest count or offset that the machine works with. -/
def countBound : Int := 4611686018427387904

/-- The nearest word to a number in the range of counts. -/
def toCount (n : Int) : Int64 := Int64.ofInt (max (-countBound) (min countBound n))

/-- A position in a list of length `n`, where a negative one counts from the end, kept between `0`
and `last`. -/
def position (pos n last : Int64) : Nat :=
  let pos := if pos < 0 then (if pos + n < 0 then 0 else pos + n) else pos
  (if last < pos then last else pos).toInt.toNat

/-- Where `place k` inserts into a stack of length `n`, counted from the bottom. -/
def placeIndex (k n : Int64) : Nat := position (if 0 ≤ k then n - k else -k - 1) n n

/-- Where `pick k` finds its element in a stack of length `n`, counted from the bottom. -/
def pickIndex (k n : Int64) : Nat := position (if 0 ≤ k then n - k - 1 else -k - 1) n (n - 1)

/-- A power of a whole number; the powers of -1, 0 and 1 depend on the parity of the exponent
alone. -/
def power (b : Int) (e : Nat) : Int :=
  if b.natAbs ≤ 1 then (if e = 0 then 1 else if e % 2 = 0 then b * b else b)
  else
    let magnitude : Int := Nat.pow b.natAbs e
    if b < 0 && e % 2 == 1 then -magnitude else magnitude

/-! ## One instruction -/

/-- What one instruction does: the machine goes on, or stops with a fault. -/
inductive Progress (σ : Type) where
  | next (m : Machine σ)
  | fault (f : Fault) (m : Machine σ)

/-- Puts a value on the stack and sets the flag by it. -/
def pushFlagged (m : Machine σ) (v : Int) : Machine σ :=
  { m with stack := v :: m.stack, zero := v == 0 }

/-- Takes the top of the stack, or a default when it is empty. -/
def takeOr (default : Int) : List Int → Int × List Int
  | [] => (default, [])
  | v :: rest => (v, rest)

/-- Writes up to `k` values from the top of the stack. -/
def printValues (channel : Channel σ) : (k : Nat) → Machine σ → Except ChannelError Unit × Machine σ
  | 0, m => (.ok (), m)
  | k + 1, m =>
    match m.stack with
    | [] => (.ok (), m)
    | v :: rest =>
      match channel.write v m.world with
      | (.error e, world) => (.error e, { m with stack := rest, zero := v == 0, world })
      | (.ok (), world) => printValues channel k { m with stack := rest, zero := v == 0, world }

/-- Reads `k` values onto the stack. -/
def readValues (channel : Channel σ) : (k : Nat) → Machine σ → Except ChannelError Unit × Machine σ
  | 0, m => (.ok (), m)
  | k + 1, m =>
    match channel.read m.world with
    | (.error e, world) => (.error e, { m with world })
    | (.ok v, world) => readValues channel k { m.pushFlagged v with world }

/-- Moves the instruction pointer by `k`, or by one when `k` is zero, and at most to just outside a
program of length `n`. -/
def jump (m : Machine σ) (k : Int64) (n : Nat) : Machine σ :=
  let target := Int64.ofInt m.ip + (if k == 0 then 1 else k)
  let ip := if target < 0 then -1 else if Int64.ofNat n < target then (n : Int) else target.toInt
  { m with ip }

/-- Applies an operation to the top `a` of the stack and the value `b` below it. -/
def binary (m : Machine σ) (top below : Int) (f : (a b : Int) → Int) : Machine σ :=
  let (a, rest) := takeOr top m.stack
  let (b, rest) := takeOr below rest
  { m with stack := rest }.pushFlagged (f a b)

/-- Like `binary`, for an operation that may fail; the operands are gone then too. -/
def binary? (m : Machine σ) (op : Opcode) (top below : Int) (f : (a b : Int) → Option Int) :
    Progress σ :=
  let (a, rest) := takeOr top m.stack
  let (b, rest) := takeOr below rest
  match f a b with
  | some v => .next ({ m with stack := rest }.pushFlagged v)
  | none => .fault (.division op) { m with stack := rest }

/-- `b` to the power `a`; a negative exponent leaves the whole part toward zero of a power of one or
minus one at most. -/
def power? (a b : Int) : Option Int :=
  if a < 0 then
    if 1 < b then some 0
    else if b = 1 then some 1
    else if b = 0 then none
    else some (-1)
  else some (power b a.toNat)

/-- Moves on to the next instruction. -/
def advance (m : Machine σ) : Machine σ := { m with ip := m.ip + 1 }

/-- Goes on after input or output, or stops with the channel's failure. -/
def afterChannel (i : Instruction) (position : Int) :
    Except ChannelError Unit × Machine σ → Progress σ
  | (.ok (), m) => .next m.advance
  | (.error e, m) => .fault (.channel position.toNat i e) m

/-- Executes the operation `op` with the argument `arg` in a program of length `n`. -/
def perform (channel : Channel σ) (n : Nat) (i : Instruction) (op : Opcode) (arg : Int)
    (m : Machine σ) : Progress σ :=
  let k := toCount arg
  match op with
  | .print => afterChannel i m.ip (printValues channel k.toInt.toNat m)
  | .read => afterChannel i m.ip (readValues channel k.toInt.toNat m)
  | .copy =>
    let (v, rest) := takeOr 0 m.stack
    let stack := List.replicate k.toInt.toNat v ++ rest
    .next { m with stack, zero := if 1 ≤ k then v == 0 else m.zero }.advance
  | .jmpz => .next (if m.zero then m.jump k n else m.advance)
  | .jmpnz => .next (if m.zero then m.advance else m.jump k n)
  | .place =>
    match m.stack with
    | [] => .next { m with stack := [0] }.advance
    | v :: rest =>
      let index := placeIndex k (Int64.ofNat rest.length)
      .next { m with stack := rest.insertIdx (rest.length - index) v, zero := v == 0 }.advance
  | .pick =>
    match m.stack with
    | [] => .next { m with stack := [0] }.advance
    | v :: rest =>
      let index := rest.length - pickIndex k (Int64.ofNat (rest.length + 1))
      let moved := ((v :: rest)[index]?).getD 0
      .next { m with stack := moved :: (v :: rest).eraseIdx index, zero := moved == 0 }.advance
  | .push => .next (m.pushFlagged arg).advance
  | .pop =>
    if k ≤ 0 then .next m.advance
    else if Int64.ofNat m.stack.length < k then .next { m with stack := [], zero := true }.advance
    else
      let last := (m.stack[k.toInt.toNat - 1]?).getD 0
      .next { m with stack := m.stack.drop k.toInt.toNat, zero := last == 0 }.advance
  | .add => .next (m.binary 0 0 fun a b => b + a).advance
  | .sub => .next (m.binary 0 0 fun a b => b - a).advance
  | .mul => .next (m.binary 0 0 fun a b => b * a).advance
  | .div => afterDivision (m.binary? op 1 0 fun a b => if a = 0 then none else some (b.fdiv a))
  | .mod => afterDivision (m.binary? op 1 0 fun a b => if a = 0 then none else some (b.fmod a))
  | .pow => afterDivision (m.binary? op 1 1 power?)
  | .abs =>
    let (v, rest) := takeOr 0 m.stack
    .next ({ m with stack := rest }.pushFlagged v.natAbs).advance
where
  /-- Moves on unless there was a fault. -/
  afterDivision : Progress σ → Progress σ
    | .next m => .next m.advance
    | fault => fault

/-- Executes the instruction `i` of a program of length `n`. -/
def step (channel : Channel σ) (n : Nat) (i : Instruction) (m : Machine σ) : Progress σ :=
  match i.opcode? with
  | none => .fault (.unknown i.mnemonic i.line) m
  | some op => perform channel n i op (i.argument.getD op.defaultArgument) m

/-! ## Runs -/

/-- How a run ends. -/
inductive Ending where
  /-- The instruction pointer left the program. -/
  | finished
  /-- The run failed. -/
  | failed (f : Fault)
  /-- The run was watched no longer. -/
  | unfinished
deriving DecidableEq, Repr

/-- A run: how it ended, the number of steps it took, and the machine after them. -/
structure Run (σ : Type) where
  ending : Ending
  steps : Nat
  machine : Machine σ

/-- The fault of a run. -/
def Run.fault? (r : Run σ) : Option Fault :=
  match r.ending with
  | .failed f => some f
  | _ => none

/-- The instruction at the instruction pointer. -/
def current? (program : Array Instruction) (m : Machine σ) : Option Instruction :=
  if m.ip < 0 then none else program[m.ip.toNat]?

/-- Runs a program on from a machine after `steps` steps. A positive `limit` bounds the number of
steps, and `fuel` bounds how long the run is watched. -/
def runFrom (channel : Channel σ) (program : Array Instruction) (limit : Nat) :
    (fuel : Nat) → (steps : Nat) → Machine σ → Run σ
  | 0, steps, m => ⟨.unfinished, steps, m⟩
  | fuel + 1, steps, m =>
    match current? program m with
    | none => ⟨.finished, steps, m⟩
    | some i =>
      if 0 < limit ∧ limit ≤ steps then ⟨.failed (.limit limit), steps, m⟩
      else match step channel program.size i m with
        | .next m' => runFrom channel program limit fuel (steps + 1) m'
        | .fault f m' => ⟨.failed f, steps + 1, m'⟩

/-- How long a run without a limit is watched. -/
def patience : Nat := 4611686018427387904

/-- Runs a program from its start. -/
def execute (channel : Channel σ) (program : List Instruction) (limit : Nat) (world : σ) : Run σ :=
  runFrom channel program.toArray limit (if limit = 0 then patience else limit + 1) 0 (start world)

end Machine

end Contour
