import Contour.Opcode

/-!
# Laws of the instruction table

Names and keys select their operation and no other (`ofName?_eq_some_iff`, `ofDelta?_eq_some_iff`),
so that the table can be used in both directions, and no key has the index of a digit.
-/

namespace Contour.Opcode

theorem mem_all (op : Opcode) : op ∈ all := by cases op <;> decide

theorem name_injective {op op' : Opcode} (h : op.name = op'.name) : op = op' := by
  have hall : ∀ a ∈ all, ∀ b ∈ all, a.name = b.name → a = b := by decide
  exact hall op (mem_all op) op' (mem_all op') h

theorem key_injective {op op' : Opcode} (h : op.key = op'.key) : op = op' := by
  have hall : ∀ a ∈ all, ∀ b ∈ all, a.key = b.key → a = b := by decide
  exact hall op (mem_all op) op' (mem_all op') h

/-- Keys are their own residues. -/
theorem residue_key (op : Opcode) : Delta.residue op.key.weight = op.key.weight := by
  cases op <;> decide

theorem index_key_ne_zero (op : Opcode) : op.key.index ≠ 0 := by cases op <;> decide

/-- Searching the table for a value that operations do not share finds the operation that has
it. -/
theorem find?_all_eq_some_iff {α : Type} [DecidableEq α] {f : Opcode → α}
    (hf : ∀ {a b}, f a = f b → a = b) {x : α} {op : Opcode} :
    all.find? (f · == x) = some op ↔ f op = x := by
  constructor
  · intro h
    simpa using List.find?_some h
  · rintro rfl
    obtain ⟨op', h⟩ : ∃ op', all.find? (f · == f op) = some op' := by
      rw [← Option.isSome_iff_exists, List.find?_isSome]
      exact ⟨op, mem_all op, by simp⟩
    have hop : op' = op := hf (by simpa using List.find?_some h)
    rw [h, hop]

theorem ofName?_eq_some_iff {s : String} {op : Opcode} : ofName? s = some op ↔ op.name = s :=
  find?_all_eq_some_iff name_injective

theorem ofDelta?_eq_some_iff {d : Delta} {op : Opcode} :
    ofDelta? d = some op ↔ op.key = ⟨d.index, Delta.residue d.weight⟩ :=
  find?_all_eq_some_iff key_injective

@[simp] theorem ofName?_name (op : Opcode) : ofName? op.name = some op :=
  ofName?_eq_some_iff.mpr rfl

@[simp] theorem ofDelta?_key (op : Opcode) : ofDelta? op.key = some op := by
  rw [ofDelta?_eq_some_iff, residue_key]

end Contour.Opcode
