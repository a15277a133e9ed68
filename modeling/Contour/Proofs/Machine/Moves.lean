import Contour.Proofs.Machine.Refinement

/-!
# Moving values in the stack

`place` moves the top of the stack down, and `pick` moves a value up to the top:

* `step_place`, `step_pick`: what they do is to insert at a depth and to take from a depth, counted
  from the top (`placeDepth`, `pickDepth`);
* `moves_insertIdx`, `moves_eraseIdx`: whatever the depth, one value is moved and all others keep
  their order (`Moves`);
* `placeDepth_eq_pickDepth`: for an argument that points into the stack both depths are the same,
  although the one is computed for a stack without its top, so that each operation undoes the other.
-/

namespace Contour

/-- The instruction carries out an operation with an argument, which is written or meant. -/
def Instruction.Does (i : Instruction) (op : Opcode) (k : Int) : Prop :=
  i.opcode? = some op ∧ i.argument.getD op.defaultArgument = k

instance (i : Instruction) (op : Opcode) (k : Int) : Decidable (i.Does op k) :=
  inferInstanceAs (Decidable (_ ∧ _))

namespace Machine

variable {σ : Type}

/-! ## One value moved -/

/-- The stacks differ in the place of one value: they are put together from the same other values,
in the same order. -/
def Moves (v : Int) (s t : List Int) : Prop :=
  ∃ above below above' below', s = above ++ v :: below ∧ t = above' ++ v :: below' ∧
    above ++ below = above' ++ below'

theorem Moves.perm {v : Int} {s t : List Int} (h : Moves v s t) : t.Perm s := by
  obtain ⟨above, below, above', below', rfl, rfl, hothers⟩ := h
  calc above' ++ v :: below'
      _ |>.Perm (v :: (above' ++ below')) := List.perm_middle
      _ |>.Perm (v :: (above ++ below)) := by rw [hothers]
      _ |>.Perm (above ++ v :: below) := List.perm_middle.symm

theorem moves_insertIdx (v : Int) {rest : List Int} {d : Nat} (hd : d ≤ rest.length) :
    Moves v (v :: rest) (rest.insertIdx d v) := by
  refine ⟨[], rest, rest.take d, rest.drop d, rfl, insertIdx_eq_take_cons_drop v hd, ?_⟩
  rw [List.take_append_drop, List.nil_append]

theorem moves_eraseIdx {s : List Int} {d : Nat} (hd : d < s.length) :
    Moves s[d] s (s[d] :: s.eraseIdx d) := by
  refine ⟨s.take d, s.drop (d + 1), [], s.eraseIdx d, ?_, rfl, ?_⟩
  · rw [← List.drop_eq_getElem_cons hd, List.take_append_drop]
  · rw [List.nil_append, List.eraseIdx_eq_take_drop_succ]

/-! ## Depths -/

/-- How many values are above the moved one after `place k` in a stack of some length. -/
def placeDepth (k : Int) (length : Nat) : Nat :=
  length - 1 - placeIndex (toCount k) (Int64.ofNat (length - 1))

/-- How many values are above the one that `pick k` moves in a stack of some length. -/
def pickDepth (k : Int) (length : Nat) : Nat :=
  length - 1 - pickIndex (toCount k) (Int64.ofNat length)

/-- The top is inserted into the rest of the stack. -/
theorem step_place {i : Instruction} {k : Int} (hi : i.Does .place k) (channel : Channel σ)
    (n : Nat) {m : Machine σ} {v : Int} {rest : List Int} (hstack : m.stack = v :: rest) :
    step channel n i m = .next { m with
      stack := rest.insertIdx (placeDepth k m.stack.length) v, zero := v == 0
      ip := m.ip + 1 } := by
  obtain ⟨hop, rfl⟩ := hi
  obtain ⟨stack, zero, ip, world⟩ := m
  obtain rfl : stack = v :: rest := hstack
  simp only [step, hop, perform, advance, placeDepth, List.length_cons, Nat.add_sub_cancel]

/-- A value is taken out and put on the top. -/
theorem step_pick {i : Instruction} {k : Int} (hi : i.Does .pick k) (channel : Channel σ) (n : Nat)
    {m : Machine σ} {v : Int} (hv : m.stack[pickDepth k m.stack.length]? = some v) :
    step channel n i m = .next { m with
      stack := v :: m.stack.eraseIdx (pickDepth k m.stack.length), zero := v == 0
      ip := m.ip + 1 } := by
  obtain ⟨hop, rfl⟩ := hi
  obtain ⟨stack, zero, ip, world⟩ := m
  cases stack with
  | nil => cases hv
  | cons top rest =>
    obtain rfl : ((top :: rest)[pickDepth (i.argument.getD Opcode.pick.defaultArgument)
        (top :: rest).length]?).getD 0 = v := by
      rw [hv, Option.getD_some]
    simp only [step, hop, perform, advance, pickDepth, List.length_cons, Nat.add_sub_cancel]

theorem placeDepth_lt {s : List Int} (h : s ≠ []) (k : Int) :
    placeDepth k s.length < s.length := by
  have hpos := List.length_pos_iff.mpr h
  unfold placeDepth
  omega

theorem pickDepth_lt {s : List Int} (h : s ≠ []) (k : Int) : pickDepth k s.length < s.length := by
  have hpos := List.length_pos_iff.mpr h
  unfold pickDepth
  omega

/-! ## Arguments that point into the stack -/

/-- A position inside the list is left as it is. -/
theorem position_of_toInt {pos n last : Int64} {p : Int} (hp : pos.toInt = p) (h0 : 0 ≤ p)
    (hlast : p ≤ last.toInt) : position pos n last = p.toNat := by
  have hpos : ¬ pos < 0 := by
    rw [Int64.lt_iff_toInt_lt, hp]
    exact not_lt.mpr h0
  have hinside : ¬ last < pos := by
    rw [Int64.lt_iff_toInt_lt, hp]
    exact not_lt.mpr hlast
  simp only [position, if_neg hpos, if_neg hinside, hp]

/-- Both operations point to the same place, if that is in the stack: `place` from the top of the
stack that is left, and `pick` from the top of the whole one. -/
theorem placeDepth_eq_pickDepth {k : Int} {length : Nat} (hlength : length < 2 ^ 63)
    (hlow : -length ≤ k) (hhigh : k ≤ length - 1) : placeDepth k length = pickDepth k length := by
  have hcount := toInt_toCount k
  have hone : (1 : Int64).toInt = 1 := rfl
  have hwhole : (Int64.ofNat length).toInt = length := Int64.toInt_ofNat_of_lt hlength
  have hrest : (Int64.ofNat (length - 1)).toInt = length - 1 := by
    rw [Int64.toInt_ofNat_of_lt (by omega)]
    omega
  have hlast : (Int64.ofNat length - 1).toInt = length - 1 := by
    rw [toInt_sub_of_fits, hwhole, hone] <;> omega
  rw [placeDepth, pickDepth, placeIndex, pickIndex]
  by_cases hk : 0 ≤ k
  · have hsign : 0 ≤ toCount k := zero_le_toCount.mpr (by omega)
    have hplace : (Int64.ofNat (length - 1) - toCount k).toInt =
        length - 1 - (toCount k).toInt := by
      rw [toInt_sub_of_fits, hrest] <;> omega
    have hsub : (Int64.ofNat length - toCount k).toInt = length - (toCount k).toInt := by
      rw [toInt_sub_of_fits, hwhole] <;> omega
    have hpick : (Int64.ofNat length - toCount k - 1).toInt = length - 1 - (toCount k).toInt := by
      rw [toInt_sub_of_fits, hsub, hone] <;> omega
    rw [if_pos hsign, if_pos hsign, position_of_toInt hplace (by omega) (by omega),
      position_of_toInt hpick (by omega) (by omega)]
  · have hsign : ¬ 0 ≤ toCount k := fun h => by
      have := zero_le_toCount.mp h
      omega
    have hneg : (-toCount k).toInt = -(toCount k).toInt := toInt_neg_of_fits (by omega)
    have hbelow : (-toCount k - 1).toInt = -(toCount k).toInt - 1 := by
      rw [toInt_sub_of_fits, hneg, hone] <;> omega
    rw [if_neg hsign, if_neg hsign, position_of_toInt hbelow (by omega) (by omega),
      position_of_toInt hbelow (by omega) (by omega)]

/-! ## One after the other -/

section Undo

variable {i j : Instruction} {k : Int} {m : Machine σ}

/-- What `place` moved down, `pick` moves up again. -/
theorem step_pick_of_place (hj : j.Does .pick k) (channel : Channel σ) (n : Nat) {v : Int}
    {rest : List Int} (hstack : m.stack = v :: rest)
    (hdepth : placeDepth k m.stack.length = pickDepth k m.stack.length) :
    step channel n j { m with
        stack := rest.insertIdx (placeDepth k m.stack.length) v, zero := v == 0, ip := m.ip + 1 } =
      .next { m with zero := v == 0, ip := m.ip + 2 } := by
  have hd : placeDepth k m.stack.length ≤ rest.length := by
    have hlt := placeDepth_lt (s := m.stack) (by simp [hstack]) k
    rw [hstack, List.length_cons] at hlt ⊢
    omega
  generalize hp : placeDepth k m.stack.length = d at hd hdepth ⊢
  have hlength : (rest.insertIdx d v).length = m.stack.length := by
    rw [List.length_insertIdx_of_le_length hd, hstack, List.length_cons]
  have hmoved : (rest.insertIdx d v)[pickDepth k (rest.insertIdx d v).length]? = some v := by
    rw [hlength, ← hdepth, List.getElem?_insertIdx_self, if_pos hd]
  rw [step_pick hj channel n hmoved, hlength, ← hdepth, List.eraseIdx_insertIdx_self, ← hstack,
    show m.ip + 2 = m.ip + 1 + 1 by omega]

/-- What `pick` moved up, `place` moves down again. -/
theorem step_place_of_pick (hi : i.Does .place k) (channel : Channel σ) (n : Nat) {v : Int}
    (hv : m.stack[pickDepth k m.stack.length]? = some v)
    (hdepth : placeDepth k m.stack.length = pickDepth k m.stack.length) :
    step channel n i { m with
        stack := v :: m.stack.eraseIdx (pickDepth k m.stack.length), zero := v == 0
        ip := m.ip + 1 } =
      .next { m with zero := v == 0, ip := m.ip + 2 } := by
  generalize hp : pickDepth k m.stack.length = d at hv hdepth ⊢
  obtain ⟨hd, rfl⟩ := List.getElem?_eq_some_iff.mp hv
  have hlength : (m.stack[d] :: m.stack.eraseIdx d).length = m.stack.length := by
    rw [List.length_cons, List.length_eraseIdx_of_lt hd]
    omega
  rw [step_place hi channel n rfl, hlength, hdepth, List.insertIdx_eraseIdx_getElem hd,
    show m.ip + 2 = m.ip + 1 + 1 by omega]

end Undo

/-- `place` and `pick` only move one value, whatever their argument: the other values keep their
order, so that the stack is a permutation of what it was, and the flag tells whether the value is
zero. `place` moves the top, and `pick` moves a value to the top. In a stack whose length is a word,
if the argument points into it, from its top or from its bottom, each of the two undoes the
other. -/
theorem place_and_pick_move_and_undo (channel : Channel σ) (n : Nat) {i j : Instruction} {k : Int}
    (hi : i.Does .place k) (hj : j.Does .pick k) {m : Machine σ} (hne : m.stack ≠ []) :
    (∃ (v : Int) (t : List Int),
      step channel n i m = .next { m with stack := t, zero := v == 0, ip := m.ip + 1 } ∧
        m.stack.head? = some v ∧ Moves v m.stack t ∧ t.Perm m.stack) ∧
    (∃ (v : Int) (t : List Int),
      step channel n j m = .next { m with stack := t, zero := v == 0, ip := m.ip + 1 } ∧
        t.head? = some v ∧ Moves v m.stack t ∧ t.Perm m.stack) ∧
    (m.stack.length < 2 ^ 63 → -m.stack.length ≤ k → k ≤ m.stack.length - 1 →
      (∃ m' zero, step channel n i m = .next m' ∧
        step channel n j m' = .next { m with zero, ip := m.ip + 2 }) ∧
      ∃ m' zero, step channel n j m = .next m' ∧
        step channel n i m' = .next { m with zero, ip := m.ip + 2 }) := by
  obtain ⟨top, rest, hstack⟩ := List.exists_cons_of_ne_nil hne
  have hplace := step_place hi channel n hstack
  have hpicked := List.getElem?_eq_getElem (pickDepth_lt hne k)
  have hpick := step_pick hj channel n hpicked
  refine ⟨⟨top, _, hplace, ?_, ?_⟩, ⟨_, _, hpick, rfl, ?_⟩, fun hlength hlow hhigh => ?_⟩
  · rw [hstack, List.head?_cons]
  · have hd := placeDepth_lt hne k
    have hmoves : Moves top m.stack (rest.insertIdx (placeDepth k m.stack.length) top) := by
      rw [hstack, List.length_cons] at hd ⊢
      exact moves_insertIdx top (Nat.le_of_lt_succ hd)
    exact ⟨hmoves, hmoves.perm⟩
  · have hmoves := moves_eraseIdx (pickDepth_lt hne k)
    exact ⟨hmoves, hmoves.perm⟩
  · have hdepth := placeDepth_eq_pickDepth hlength hlow hhigh
    exact ⟨⟨_, _, hplace, step_pick_of_place hj channel n hstack hdepth⟩,
      ⟨_, _, hpick, step_place_of_pick hi channel n hpicked hdepth⟩⟩

/-- The second place from the bottom: `place` brings the top there, below two other values, and
`pick` brings it up again. -/
theorem place_and_pick_move_and_undo_from_bottom :
    let channel : Channel Unit := { read := fun w => (.ok 0, w), write := fun _ w => (.ok (), w) }
    let i : Instruction := { mnemonic := "place", argument := some (-2) }
    let j : Instruction := { mnemonic := "pick", argument := some (-2) }
    let m : Machine Unit := ⟨[5, 0, 7, 1], true, 0, ()⟩
    let m' : Machine Unit := ⟨[0, 7, 5, 1], false, 1, ()⟩
    (i.Does .place (-2) ∧ j.Does .pick (-2) ∧ m.stack ≠ []) ∧
      step channel 2 i m = .next m' ∧
        ∃ zero, step channel 2 j m' = .next { m with zero, ip := 2 } := by
  intro channel i j m m'
  have hi : i.Does .place (-2) := by decide +kernel
  have hj : j.Does .pick (-2) := by decide +kernel
  have hne : m.stack ≠ [] := by decide
  have hdepth : placeDepth (-2) m.stack.length = 2 := by
    show placeDepth (-2) 4 = 2
    decide +kernel
  have hstep : step channel 2 i m = .next m' := by
    have hstack : m.stack = 5 :: [0, 7, 1] := rfl
    rw [step_place hi channel 2 hstack, hdepth]
    rfl
  obtain ⟨-, -, hundo⟩ := place_and_pick_move_and_undo channel 2 hi hj hne
  obtain ⟨⟨m₁, zero, hplace, hback⟩, -⟩ := hundo (by decide) (by decide) (by decide)
  rw [hstep, Progress.next.injEq] at hplace
  subst hplace
  exact ⟨⟨hi, hj, hne⟩, hstep, zero, hback⟩

end Machine

end Contour
