import Contour.Machine
import Contour.Proofs.Opcode
import Mathlib.Data.List.DropRight
import Mathlib.Data.Rat.Floor

/-!
# What the instruction table says

The table gives every operation a meaning in whole numbers without bounds. `row` has one case for
each of its lines: how the operation changes the stack, which is a list with its bottom first, the
flag and the instruction pointer, what it reads and writes, and how it fails. `place` and `pick`
point into the stack by the rules for list indices (`resolve`). `effect` finds the line of an
instruction.

A channel that keeps what passes through it (`Channel.recorded`) keeps what the table says is read
and written (`effect_recorded`).
-/

namespace Contour

variable {σ : Type}

namespace Table

/-- A state of the machine and of the world. -/
structure State (σ : Type) where
  /-- The stack, bottom first. -/
  stack : List Int
  zero : Bool
  ip : Int
  world : σ

/-- What is seen of one instruction. -/
structure Effect (σ : Type) where
  fault : Option Fault := none
  /-- The state that the instruction leaves, also when it fails. -/
  state : State σ
  /-- The values that the reader gave. -/
  read : List Int := []
  /-- The values that the writer took. -/
  written : List Int := []

/-- How an effect ends: with a fault or without, in a state. -/
def Effect.outcome (e : Effect σ) : Option Fault × State σ := (e.fault, e.state)

/-! ## Positions -/

/-- The place in a list of a position that may count from the end: the length is added once to a
negative one, and the result is brought between zero and `last`. -/
def resolve (position length last : Int) : Nat :=
  (max 0 (min last (if position < 0 then position + length else position))).toNat

/-- Where a jump lands in a program of length `n`: at its target, or next to the program on the
side of the target. -/
def landing (n : Nat) (target : Int) : Int := max (-1) (min n target)

/-- A jump lands on an instruction exactly if that is its target. -/
theorem landing_eq_iff {n : Nat} {target j : Int} (h0 : 0 ≤ j) (hj : j < n) :
    landing n target = j ↔ target = j := by
  rw [landing]
  omega

/-! ## The channel -/

/-- A conversation with the channel: the values that passed, the failure that ended it early, and
the world after it. -/
structure Talk (σ : Type) where
  passed : List Int
  error : Option ChannelError
  world : σ

/-- Offers values to the writer one by one, until it fails. -/
def offer (channel : Channel σ) : List Int → σ → Talk σ
  | [], world => ⟨[], none, world⟩
  | v :: vs, world =>
    match channel.write v world with
    | (.error e, world) => ⟨[], some e, world⟩
    | (.ok (), world) =>
      let talk := offer channel vs world
      { talk with passed := v :: talk.passed }

/-- Asks the reader for a number of values, until it fails. -/
def ask (channel : Channel σ) : Nat → σ → Talk σ
  | 0, world => ⟨[], none, world⟩
  | k + 1, world =>
    match channel.read world with
    | (.error e, world) => ⟨[], some e, world⟩
    | (.ok v, world) =>
      let talk := ask channel k world
      { talk with passed := v :: talk.passed }

/-! ## The stack -/

namespace State

/-- The top of the stack, or a default for a missing one. -/
def top (s : State σ) (missing : Int) : Int := s.stack.getLast?.getD missing

/-- The value below the top, or a default for a missing one. -/
def below (s : State σ) (missing : Int) : Int := s.stack.dropLast.getLast?.getD missing

/-- The `k` values on top, or all if there are fewer, from the top down. -/
def topmost (s : State σ) (k : Nat) : List Int := (s.stack.rtake k).reverse

/-- The flag after values were seen one after another: the last one sets it. -/
def flagAfter (s : State σ) (seen : List Int) : Bool := seen.getLast?.elim s.zero (· == 0)

/-- Goes on to the next instruction with this stack and flag. -/
def proceed (s : State σ) (stack : List Int) (zero : Bool) : Effect σ :=
  { state := { s with stack, zero, ip := s.ip + 1 } }

/-- Takes `count` values off the stack, puts the result of a computation there, and sets the flag
by it. -/
def produce (s : State σ) (count : Nat) (result : Int) : Effect σ :=
  s.proceed (s.stack.rdrop count ++ [result]) (result == 0)

/-- Stops at a division by zero; the operands are gone. -/
def divisionFault (s : State σ) (op : Opcode) : Effect σ :=
  { fault := some (.division op), state := { s with stack := s.stack.rdrop 2 } }

/-- Goes on after a conversation in which these values were seen, or stops with its failure. -/
def afterTalk (s : State σ) (i : Instruction) (talk : Talk σ) (stack seen : List Int) :
    Effect σ where
  fault := talk.error.map (.channel s.ip.toNat i)
  state :=
    { stack, zero := s.flagAfter seen, world := talk.world
      ip := if talk.error.isNone then s.ip + 1 else s.ip }

@[simp] theorem fault_proceed (s : State σ) (stack : List Int) (zero : Bool) :
    (s.proceed stack zero).fault = none := rfl

@[simp] theorem fault_produce (s : State σ) (count : Nat) (result : Int) :
    (s.produce count result).fault = none := rfl

@[simp] theorem fault_divisionFault (s : State σ) (op : Opcode) :
    (s.divisionFault op).fault = some (.division op) := rfl

@[simp] theorem fault_afterTalk (s : State σ) (i : Instruction) (talk : Talk σ)
    (stack seen : List Int) :
    (s.afterTalk i talk stack seen).fault = talk.error.map (.channel s.ip.toNat i) := rfl

end State

/-! ## The lines of the table -/

/-- The line of the operation `op`, for the argument `k` in a program of length `n`. -/
def row (channel : Channel σ) (n : Nat) (i : Instruction) (op : Opcode) (k : Int) (s : State σ) :
    Effect σ :=
  let height : Int := s.stack.length
  match op with
  | .print =>
    let talk := offer channel (s.topmost k.toNat) s.world
    -- A value that the writer refuses has left the stack, and has set the flag.
    let gone := (s.topmost k.toNat).take (talk.passed.length + talk.error.toList.length)
    { s.afterTalk i talk (s.stack.rdrop gone.length) gone with written := talk.passed }
  | .read =>
    let talk := ask channel k.toNat s.world
    { s.afterTalk i talk (s.stack ++ talk.passed) talk.passed with read := talk.passed }
  | .copy =>
    let copies := List.replicate k.toNat (s.top 0)
    s.proceed (s.stack.rdrop 1 ++ copies) (s.flagAfter copies)
  | .jmpz =>
    let target := s.ip + if k = 0 then 1 else k
    if s.zero then { state := { s with ip := landing n target } } else s.proceed s.stack s.zero
  | .jmpnz =>
    let target := s.ip + if k = 0 then 1 else k
    if s.zero then s.proceed s.stack s.zero else { state := { s with ip := landing n target } }
  | .place =>
    if s.stack = [] then s.proceed [0] s.zero
    else
      -- The position is one in the stack without its top.
      let position := resolve (if 0 ≤ k then height - 1 - k else -k - 1) (height - 1) (height - 1)
      s.proceed (s.stack.dropLast.insertIdx position (s.top 0)) (s.top 0 == 0)
  | .pick =>
    if s.stack = [] then s.proceed [0] s.zero
    else
      let position := resolve (if 0 ≤ k then height - k - 1 else -k - 1) height (height - 1)
      let moved := s.stack.getD position 0
      s.proceed (s.stack.eraseIdx position ++ [moved]) (moved == 0)
  | .push => s.proceed (s.stack ++ [k]) (k == 0)
  | .pop =>
    if k ≤ 0 then s.proceed s.stack s.zero
    else if height < k then s.proceed [] true
    else s.proceed (s.stack.rdrop k.toNat) (s.flagAfter (s.topmost k.toNat))
  | .add => s.produce 2 (s.below 0 + s.top 0)
  | .sub => s.produce 2 (s.below 0 - s.top 0)
  | .mul => s.produce 2 (s.below 0 * s.top 0)
  | .div =>
    if s.top 1 = 0 then s.divisionFault .div
    else s.produce 2 ⌊(s.below 0 : ℚ) / s.top 1⌋
  | .mod =>
    if s.top 1 = 0 then s.divisionFault .mod
    else s.produce 2 (s.below 0 - s.top 1 * ⌊(s.below 0 : ℚ) / s.top 1⌋)
  | .pow =>
    if 0 ≤ s.top 1 then s.produce 2 (s.below 1 ^ (s.top 1).toNat)
    else if s.below 1 = 0 then s.divisionFault .pow
    else s.produce 2 (if 1 < s.below 1 then 0 else if s.below 1 = 1 then 1 else -1)
  | .abs => s.produce 1 |s.top 0|

/-- What an instruction does: the line of the operation that its mnemonic names, with its argument
or the one that is meant when none is written. -/
def effect (channel : Channel σ) (n : Nat) (i : Instruction) (s : State σ) : Effect σ :=
  match Opcode.all.find? (·.name == i.mnemonic) with
  | none => { fault := some (.unknown i.mnemonic i.line), state := s }
  | some op => row channel n i op (i.argument.getD op.defaultArgument) s

end Table

/-! ## Records of what passes -/

/-- A world with a record of the values that the reader gave and the writer took. -/
structure Recorded (σ : Type) where
  world : σ
  read : List Int := []
  written : List Int := []

/-- The channel that also keeps a record. -/
def Channel.recorded (channel : Channel σ) : Channel (Recorded σ) where
  read r :=
    match channel.read r.world with
    | (.error e, world) => (.error e, { r with world })
    | (.ok v, world) => (.ok v, { r with world, read := r.read ++ [v] })
  write v r :=
    match channel.write v r.world with
    | (.error e, world) => (.error e, { r with world })
    | (.ok (), world) => (.ok (), { r with world, written := r.written ++ [v] })

theorem Channel.recorded_read (channel : Channel σ) (r : Recorded σ) :
    channel.recorded.read r =
      match channel.read r.world with
      | (.error e, world) => (.error e, { r with world })
      | (.ok v, world) => (.ok v, { r with world, read := r.read ++ [v] }) := rfl

theorem Channel.recorded_write (channel : Channel σ) (v : Int) (r : Recorded σ) :
    channel.recorded.write v r =
      match channel.write v r.world with
      | (.error e, world) => (.error e, { r with world })
      | (.ok (), world) => (.ok (), { r with world, written := r.written ++ [v] }) := rfl

namespace Table

/-- The state with a record beside its world. -/
def State.record (s : State σ) (read written : List Int) : State (Recorded σ) :=
  ⟨s.stack, s.zero, s.ip, s.world, read, written⟩

/-- The effect with a record beside its world of what it read and wrote. -/
def Effect.record (e : Effect σ) : Effect (Recorded σ) :=
  { e with state := e.state.record e.read e.written }

end Table

end Contour
