import Contour.Proofs.Assembled
import Contour.Proofs.Assembly

/-!
# Canonical streams

Disassembling a stream and assembling the lines again writes the same program in one fixed way:
operations by their keys, every argument by the digits of `Numeral.encode`, and nothing else. A
stream that is written in this way (`Canonical`) stays as it is, and no other does.
-/

namespace Contour.Stream

open Machine (SameEffect execute runFrom start)

/-- A stream of keys, with a number after each operation that takes one. -/
def Canonical (ds : List Delta) : Prop :=
  ∃ blocks : List (Opcode × Int),
    ds = blocks.flatMap fun b => b.1.key :: if b.1.takesArgument then Numeral.encode b.2 else []

/-! ## What is read -/

/-- The mnemonic is one of the table, and the argument is there exactly if the operation takes
one. -/
structure IsRead (i : Instruction) : Prop where
  known : ∃ op, i.opcode? = some op ∧ i.argument.isSome = op.takesArgument
  line : i.line = 0

theorem readSpan_operation {d : Delta} {rest : List Delta} {op : Opcode} {argument : Option Int}
    (h : (readSpan d rest).1 = .operation op argument) : argument.isSome = op.takesArgument := by
  rw [readSpan] at h
  split at h
  · split at h
    · rename_i htakes
      cases h
      exact htakes.symm
    · rename_i htakes
      cases h
      simpa using htakes
  · split at h <;> cases h

theorem isRead_of_mem_spansFrom {offset : Nat} {ds : List Delta} {i : Instruction}
    (h : i ∈ (spansFrom offset ds).filterMap Span.instruction?) : IsRead i := by
  fun_induction spansFrom offset ds with
  | case1 => cases h
  | case2 offset d rest content extra hspan ih =>
    rw [List.mem_filterMap] at h
    obtain ⟨span, hmem, hi⟩ := h
    rcases List.mem_cons.mp hmem with rfl | hmem
    · cases content with
      | operation op argument =>
        cases hi
        exact ⟨⟨op, Opcode.ofName?_name op, readSpan_operation (congrArg Prod.fst hspan)⟩, rfl⟩
      | comment => cases hi
      | unused => cases hi
    · exact ih (List.mem_filterMap.mpr ⟨span, hmem, hi⟩)

theorem isRead_of_mem_decode {ds : List Delta} {i : Instruction} (h : i ∈ decode ds) : IsRead i :=
  isRead_of_mem_spansFrom h

theorem IsRead.isSome {i : Instruction} (h : IsRead i) : i.opcode?.isSome := by
  obtain ⟨op, hop, -⟩ := h.known
  rw [hop]; rfl

theorem heldArgument_of_isSome {op : Opcode} {argument : Option Int}
    (h : argument.isSome = op.takesArgument) : heldArgument op argument = argument := by
  rw [heldArgument, ← h]
  cases argument <;> rfl

/-! ## Words -/

/-- Instructions that differ at most in where they were found. -/
structure SameWords (i j : Instruction) : Prop where
  mnemonic : i.mnemonic = j.mnemonic
  argument : i.argument = j.argument

namespace SameWords

variable {i j : Instruction}

theorem text_eq (h : SameWords i j) : i.text = j.text := by
  rw [Instruction.text, Instruction.text, h.mnemonic, h.argument]

theorem opcode?_eq (h : SameWords i j) : i.opcode? = j.opcode? := by
  rw [Instruction.opcode?, Instruction.opcode?, h.mnemonic]

theorem blockOf_eq (h : SameWords i j) : blockOf i = blockOf j := by
  rw [blockOf, blockOf, h.opcode?_eq, h.argument]

theorem sameEffect (h : SameWords i j) (hi : i.opcode?.isSome) : SameEffect i j := by
  obtain ⟨op, hop⟩ := Option.isSome_iff_exists.mp hi
  exact ⟨op, hop, h.opcode?_eq ▸ hop, fun _ => by rw [h.argument]⟩

/-- An instruction that was read keeps its words when it is written and read again. -/
theorem of_settles (h : Settles i j) (hi : IsRead i) : SameWords i j := by
  obtain ⟨op, hop, harg⟩ := h.argument
  obtain ⟨op', hop', hsome⟩ := hi.known
  rw [hop] at hop'
  cases hop'
  rw [heldArgument_of_isSome hsome] at harg
  exact ⟨h.mnemonic.symm, harg.symm⟩

end SameWords

/-- Assembling depends on the words of the instructions only. -/
theorem assemble_of_sameWords {is js : List Instruction} (h : List.Forall₂ SameWords is js)
    (hknown : ∀ i ∈ is, i.opcode?.isSome) : assemble js = .ok (is.flatMap blockOf) := by
  induction h with
  | nil => rfl
  | @cons i j is js hij _ ih =>
    have hi := hknown i List.mem_cons_self
    rw [assemble, encode_eq_blockOf (hij.opcode?_eq ▸ hi), ← hij.blockOf_eq,
      ih fun i' hi' => hknown i' (List.mem_cons_of_mem _ hi'), List.flatMap_cons]
    rfl

theorem map_text_congr {is js : List Instruction} (h : List.Forall₂ SameWords is js) :
    is.map Instruction.text = js.map Instruction.text := by
  induction h with
  | nil => rfl
  | cons hij _ ih => rw [List.map_cons, List.map_cons, hij.text_eq, ih]

/-! ## Lines -/

/-- The mnemonics of the table are made of letters. -/
theorem name_letters (op : Opcode) : op.name.toList ≠ [] ∧
    ∀ c ∈ op.name.toList, Assembly.isMnemonicChar c = true := by
  rw [← List.all_eq_true]
  cases op <;> decide

theorem IsRead.isSpelled {i : Instruction} (h : IsRead i) : Assembly.IsSpelled i := by
  obtain ⟨op, hop, -⟩ := h.known
  have hletters := name_letters op
  rw [Opcode.ofName?_eq_some_iff.mp hop] at hletters
  exact ⟨hletters.1, hletters.2⟩

/-- Instructions that are read back from their lines, one by one, keep their words. -/
theorem forall₂_sameWords_ofLinesFrom {is : List Instruction} {line : Instruction → List Char}
    (h : ∀ i ∈ is, Assembly.ofLine? (line i) =
      some { mnemonic := i.mnemonic, argument := i.argument }) (n : Nat) :
    List.Forall₂ SameWords is (Assembly.ofLinesFrom n (is.map line)) := by
  induction is generalizing n with
  | nil => exact .nil
  | cons i is ih =>
    rw [List.map_cons, Assembly.ofLinesFrom, h i List.mem_cons_self]
    exact .cons ⟨rfl, rfl⟩ (ih (fun j hj => h j (List.mem_cons_of_mem _ hj)) (n + 1))

/-- Assembling the lines of a disassembled stream succeeds. -/
theorem assemble_ofLines_disassemble (ds : List Delta) :
    assemble (Assembly.ofLines ((disassemble ds).map String.toList)) =
      .ok ((decode ds).flatMap blockOf) := by
  have hread : ∀ i ∈ decode ds, IsRead i := fun i => isRead_of_mem_decode
  have hlines : (disassemble ds).map String.toList = (decode ds).map fun i => i.text.toList := by
    rw [disassemble, List.map_map]; rfl
  rw [hlines]
  exact assemble_of_sameWords
    (forall₂_sameWords_ofLinesFrom (fun i hi => Assembly.ofLine?_text (hread i hi).isSpelled) 1)
    fun i hi => (hread i hi).isSome

/-! ## Streams that stay as they are -/

theorem canonical_flatMap_blockOf {is : List Instruction} (h : ∀ i ∈ is, IsRead i) :
    Canonical (is.flatMap blockOf) := by
  induction is with
  | nil => exact ⟨[], rfl⟩
  | cons i is ih =>
    obtain ⟨blocks, hblocks⟩ := ih fun j hj => h j (List.mem_cons_of_mem _ hj)
    obtain ⟨op, hop, hsome⟩ := (h i List.mem_cons_self).known
    refine ⟨(op, i.argument.getD 0) :: blocks, ?_⟩
    rw [List.flatMap_cons, List.flatMap_cons, ← hblocks, blockOf_eq hop, block, ← hsome]
    cases i.argument <;> rfl

/-- An argument that was given is written as it was. -/
theorem Settles.blockOf_eq {i j : Instruction} (h : Settles i j) (hi : i.argument.isSome) :
    blockOf j = blockOf i := by
  obtain ⟨op, hop, harg⟩ := h.argument
  obtain ⟨n, hn⟩ := Option.isSome_iff_exists.mp hi
  have hop' : j.opcode? = some op := by rw [Instruction.opcode?, h.mnemonic]; exact hop
  rw [Stream.blockOf_eq hop, Stream.blockOf_eq hop', harg, hn, heldArgument, block, block]
  cases op.takesArgument <;> rfl

theorem flatMap_blockOf_of_settles {is js : List Instruction} (h : List.Forall₂ Settles is js)
    (hsome : ∀ i ∈ is, i.argument.isSome) : js.flatMap blockOf = is.flatMap blockOf := by
  induction h with
  | nil => rfl
  | @cons i j is js hij _ ih =>
    rw [List.flatMap_cons, List.flatMap_cons, hij.blockOf_eq (hsome i List.mem_cons_self),
      ih fun i' hi' => hsome i' (List.mem_cons_of_mem _ hi')]

theorem flatMap_blockOf_decode_of_canonical {ds : List Delta} (h : Canonical ds) :
    (decode ds).flatMap blockOf = ds := by
  obtain ⟨blocks, hblocks⟩ := h
  -- The program of the blocks, with an argument for every operation.
  let is : List Instruction := blocks.map fun b => { mnemonic := b.1.name, argument := some b.2 }
  have hds : ds = is.flatMap blockOf := by
    rw [hblocks, List.flatMap_map]
    refine List.flatMap_congr fun b _ => ?_
    have hop : ({ mnemonic := b.1.name, argument := some b.2 } : Instruction).opcode? = some b.1 :=
      Opcode.ofName?_name b.1
    rw [blockOf_eq hop]
    rfl
  have hknown : ∀ i ∈ is, i.opcode?.isSome := by
    intro i hi
    obtain ⟨b, -, rfl⟩ := List.mem_map.mp hi
    rw [Instruction.opcode?, Opcode.ofName?_name]
    rfl
  have hsome : ∀ i ∈ is, i.argument.isSome := by
    intro i hi
    obtain ⟨b, -, rfl⟩ := List.mem_map.mp hi
    rfl
  rw [hds]
  exact flatMap_blockOf_of_settles (forall₂_settles_spansFrom hknown 0) hsome

/-- Disassembling and assembling again is a canonicalisation: it succeeds, a second pass changes
nothing, the result runs as the stream does, and exactly the canonical streams stay as they are. -/
theorem assemble_disassemble (ds : List Delta) :
    ∃ ds', assemble (Assembly.ofLines ((disassemble ds).map String.toList)) = .ok ds' ∧
      disassemble ds' = disassemble ds ∧
      (∀ (σ : Type) (channel : Channel σ) (limit : Nat) (world : σ),
        (execute channel (decode ds) limit world).Alike (fun i j => i.text = j.text)
            (execute channel (decode ds') limit world) ∧
          (execute channel (decode ds) limit world).fault?.map Fault.message =
            (execute channel (decode ds') limit world).fault?.map Fault.message ∧
          ∀ fuel, (runFrom channel (decode ds).toArray limit fuel 0 (start world)).Alike
            (fun i j => i.text = j.text)
            (runFrom channel (decode ds').toArray limit fuel 0 (start world))) ∧
      (ds' = ds ↔ Canonical ds) := by
  have hread : ∀ i ∈ decode ds, IsRead i := fun i => isRead_of_mem_decode
  have hwords : List.Forall₂ SameWords (decode ds) (decode ((decode ds).flatMap blockOf)) := by
    have hsettles := forall₂_settles_spansFrom (fun i hi => (hread i hi).isSome) 0
    exact ((List.forall₂_and_left _ _).mpr ⟨hread, hsettles⟩).imp fun i j h => .of_settles h.2 h.1
  have heffect : List.Forall₂ (fun i j => SameEffect i j ∧ i.text = j.text) (decode ds)
      (decode ((decode ds).flatMap blockOf)) :=
    ((List.forall₂_and_left _ _).mpr ⟨hread, hwords⟩).imp fun i j h =>
      ⟨h.2.sameEffect h.1.isSome, h.2.text_eq⟩
  refine ⟨_, assemble_ofLines_disassemble ds, (map_text_congr hwords).symm,
    fun σ channel limit world => ?_, ?_⟩
  · have hrun := Machine.execute_alike heffect channel limit world
    exact ⟨hrun, hrun.message_eq, fun fuel =>
      Machine.runFrom_alike heffect channel limit fuel 0 (start world)⟩
  · refine ⟨fun h => ?_, flatMap_blockOf_decode_of_canonical⟩
    rw [← h]
    exact canonical_flatMap_blockOf hread

end Contour.Stream
