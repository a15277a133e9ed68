import Contour.Proofs.Machine.Alike
import Contour.Proofs.Stream

/-!
# Running an assembled program

A program of known instructions can be assembled, the stream holds it instruction by instruction,
and running what is read from the stream is running the program: the argument that is filled in on
reading is the one that the machine would have filled in.
-/

namespace Contour.Stream

open Machine (SameEffect execute runFrom start)

theorem Settles.sameEffect {i j : Instruction} (h : Settles i j) : SameEffect i j := by
  obtain ⟨op, hop, harg⟩ := h.argument
  refine ⟨op, hop, ?_, fun htakes => ?_⟩
  · rw [Instruction.opcode?, h.mnemonic]
    exact hop
  · rw [harg, heldArgument, if_pos htakes, Option.getD_some]

/-- The instruction read at each position of an assembled program. -/
theorem Settles.getElem? {is js : List Instruction} (h : List.Forall₂ Settles is js) {k : Nat}
    {i : Instruction} (hi : is[k]? = some i) :
    ∃ (op : Opcode) (j : Instruction), op.name = i.mnemonic ∧ js[k]? = some j ∧
      j.mnemonic = i.mnemonic ∧ j.argument =
        if op.takesArgument then some (i.argument.getD op.defaultArgument) else none := by
  obtain ⟨hnone, -⟩ | ⟨i', j, hi', hj, hs⟩ := Machine.getElem?_forall₂ h k
  · rw [hi] at hnone
    cases hnone
  · rw [hi] at hi'
    cases hi'
    obtain ⟨op, hop, harg⟩ := hs.argument
    exact ⟨op, j, Opcode.ofName?_eq_some_iff.mp hop, hj, hs.mnemonic, harg⟩

/-- Assembling a program of known instructions succeeds and loses none of them, and what is read
from the stream runs as the program does: to the same machine in the same number of steps, with the
same ending but for the instruction that a failed channel is reported with, and also if it is
watched for a while only. -/
theorem execute_decode_assemble (is : List Instruction)
    (h : ∀ i ∈ is, ∃ op : Opcode, op.name = i.mnemonic) :
    ∃ ds, assemble is = .ok ds ∧ (decode ds).length = is.length ∧
      (∀ (k : Nat) (i : Instruction), is[k]? = some i →
        ∃ (op : Opcode) (j : Instruction), op.name = i.mnemonic ∧ (decode ds)[k]? = some j ∧
          j.mnemonic = i.mnemonic ∧ j.argument =
            if op.takesArgument then some (i.argument.getD op.defaultArgument) else none) ∧
      ∀ (σ : Type) (channel : Channel σ) (limit : Nat) (world : σ),
        (execute channel is limit world).Alike (fun i j => i.mnemonic = j.mnemonic)
            (execute channel (decode ds) limit world) ∧
          ∀ fuel, (runFrom channel is.toArray limit fuel 0 (start world)).Alike
            (fun i j => i.mnemonic = j.mnemonic)
            (runFrom channel (decode ds).toArray limit fuel 0 (start world)) := by
  have hknown : ∀ i ∈ is, i.opcode?.isSome := by
    intro i hi
    obtain ⟨op, hop⟩ := h i hi
    rw [Instruction.opcode?, Opcode.ofName?_eq_some_iff.mpr hop]
    rfl
  obtain ⟨ds, hds, hread⟩ := forall₂_decode_assemble hknown
  have hsame : List.Forall₂ (fun i j => SameEffect i j ∧ i.mnemonic = j.mnemonic) is (decode ds) :=
    hread.imp fun i j hij => ⟨hij.sameEffect, hij.mnemonic.symm⟩
  refine ⟨ds, hds, hread.length_eq.symm, fun k i hi => Settles.getElem? hread hi,
    fun σ channel limit world => ⟨?_, fun fuel => ?_⟩⟩
  · exact Machine.execute_alike hsame channel limit world
  · exact Machine.runFrom_alike hsame channel limit fuel 0 (start world)

/-- A number, an argument that is left out, and one that the operation does not take. -/
theorem execute_decode_assemble_push_copy_add :
    ∃ ds, assemble [{ mnemonic := "push", argument := some (-12) }, { mnemonic := "copy" },
        { mnemonic := "add", argument := some 5 }] = .ok ds ∧ (decode ds).length = 3 ∧
      (execute Channel.silent [{ mnemonic := "push", argument := some (-12) },
          { mnemonic := "copy" }, { mnemonic := "add", argument := some 5 }] 0 ()).Alike
        (fun i j => i.mnemonic = j.mnemonic) (execute Channel.silent (decode ds) 0 ()) := by
  obtain ⟨ds, hds, hlength, -, hrun⟩ := execute_decode_assemble
    [{ mnemonic := "push", argument := some (-12) }, { mnemonic := "copy" },
      { mnemonic := "add", argument := some 5 }]
    (by simpa using ⟨⟨.push, rfl⟩, ⟨.copy, rfl⟩, ⟨.add, rfl⟩⟩)
  exact ⟨ds, hds, hlength, (hrun Unit Channel.silent 0 ()).1⟩

end Contour.Stream
