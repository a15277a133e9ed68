import Contour.Stream
import Contour.Proofs.Numeral
import Contour.Proofs.Opcode

/-!
# Reading what was written

A stream that was assembled is a sequence of blocks: the key of an operation, and a number after it
if the operation takes one and it was given (`block`). Reading cuts such a stream at exactly its
blocks (`spansFrom_block_append`), because every key ends the number before it. Hence each
instruction is read back (`forall₂_decode_assemble`), with its argument filled in where it was left
out and dropped where the operation takes none (`Settles`).
-/

namespace Contour.Stream

/-! ## Blocks -/

/-- The deltas of an operation. The argument is written if it is there and the operation takes
one. -/
def block (op : Opcode) (argument : Option Int) : List Delta :=
  op.key :: if op.takesArgument then argument.elim [] Numeral.encode else []

/-- The argument that is read from a block. -/
def heldArgument (op : Opcode) (argument : Option Int) : Option Int :=
  if op.takesArgument then some (argument.getD op.defaultArgument) else none

/-- A stream that does not start with a digit. -/
def EndsNumber (ds : List Delta) : Prop := ∀ e ∈ ds.head?, e.index ≠ 0

theorem endsNumber_nil : EndsNumber [] := by simp [EndsNumber]

theorem endsNumber_block_append (op : Opcode) (argument : Option Int) (rest : List Delta) :
    EndsNumber (block op argument ++ rest) := by
  intro e he
  cases he
  exact op.index_key_ne_zero

/-- A block is read as its operation, and nothing after it is. -/
theorem readSpan_key (op : Opcode) (argument : Option Int) {rest : List Delta}
    (hrest : EndsNumber rest) :
    readSpan op.key ((block op argument).tail ++ rest) =
      (.operation op (heldArgument op argument), (block op argument).tail.length) := by
  rw [readSpan, Opcode.ofDelta?_key, block, heldArgument]
  by_cases htakes : op.takesArgument = true
  · cases argument with
    | none => simp [htakes, Numeral.read_of_not_run hrest]
    | some n => simp [htakes, Numeral.read_encode_append n _ hrest]
  · simp [htakes]

theorem spansFrom_block_append (offset : Nat) (op : Opcode) (argument : Option Int)
    {rest : List Delta} (hrest : EndsNumber rest) :
    spansFrom offset (block op argument ++ rest) =
      ⟨offset, .operation op (heldArgument op argument), (block op argument).length⟩ ::
        spansFrom (offset + (block op argument).length) rest := by
  have hcons : block op argument ++ rest = op.key :: ((block op argument).tail ++ rest) := rfl
  have hlength : 1 + (block op argument).tail.length = (block op argument).length := by
    rw [Nat.add_comm]; rfl
  rw [hcons, spansFrom, readSpan_key op argument hrest]
  simp only [hlength, List.drop_left]

/-! ## Instructions as blocks -/

/-- The deltas of an instruction, none if it is unknown. -/
def blockOf (i : Instruction) : List Delta := i.opcode?.elim [] (block · i.argument)

theorem blockOf_eq {i : Instruction} {op : Opcode} (h : i.opcode? = some op) :
    blockOf i = block op i.argument := by
  rw [blockOf, h, Option.elim_some]

theorem encode_eq_blockOf {i : Instruction} (h : i.opcode?.isSome) :
    encode i = .ok (blockOf i) := by
  obtain ⟨op, hop⟩ := Option.isSome_iff_exists.mp h
  rw [encode, hop, blockOf_eq hop, block]
  cases htakes : op.takesArgument <;> cases harg : i.argument <;> simp [htakes]

/-- Known instructions are assembled, one block after the other. -/
theorem assemble_eq_flatMap {is : List Instruction} (h : ∀ i ∈ is, i.opcode?.isSome) :
    assemble is = .ok (is.flatMap blockOf) := by
  induction is with
  | nil => rfl
  | cons i is ih =>
    rw [assemble, encode_eq_blockOf (h i List.mem_cons_self),
      ih fun j hj => h j (List.mem_cons_of_mem _ hj), List.flatMap_cons]
    rfl

theorem endsNumber_flatMap_blockOf {is : List Instruction} (h : ∀ i ∈ is, i.opcode?.isSome) :
    EndsNumber (is.flatMap blockOf) := by
  cases is with
  | nil => exact endsNumber_nil
  | cons i is =>
    obtain ⟨op, hop⟩ := Option.isSome_iff_exists.mp (h i List.mem_cons_self)
    rw [List.flatMap_cons, blockOf_eq hop]
    exact endsNumber_block_append op _ _

/-- `j` is what is read of `i` after it was written. -/
structure Settles (i j : Instruction) : Prop where
  mnemonic : j.mnemonic = i.mnemonic
  argument : ∃ op, i.opcode? = some op ∧ j.argument = heldArgument op i.argument
  line : j.line = 0

theorem forall₂_settles_spansFrom {is : List Instruction} (h : ∀ i ∈ is, i.opcode?.isSome)
    (offset : Nat) :
    List.Forall₂ Settles is
      ((spansFrom offset (is.flatMap blockOf)).filterMap Span.instruction?) := by
  induction is generalizing offset with
  | nil => simp [spansFrom]
  | cons i is ih =>
    have hrest : ∀ j ∈ is, j.opcode?.isSome := fun j hj => h j (List.mem_cons_of_mem _ hj)
    obtain ⟨op, hop⟩ := Option.isSome_iff_exists.mp (h i List.mem_cons_self)
    rw [List.flatMap_cons, blockOf_eq hop,
      spansFrom_block_append offset op _ (endsNumber_flatMap_blockOf hrest), List.filterMap_cons]
    refine .cons ⟨?_, ⟨op, hop, rfl⟩, rfl⟩ (ih hrest _)
    exact Opcode.ofName?_eq_some_iff.mp hop

/-- Assembling known instructions succeeds, and each is read back. -/
theorem forall₂_decode_assemble {is : List Instruction} (h : ∀ i ∈ is, i.opcode?.isSome) :
    ∃ ds, assemble is = .ok ds ∧ List.Forall₂ Settles is (decode ds) :=
  ⟨_, assemble_eq_flatMap h, forall₂_settles_spansFrom h 0⟩

end Contour.Stream
