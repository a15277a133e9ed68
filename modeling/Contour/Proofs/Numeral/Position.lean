import Contour.Proofs.Numeral
import Mathlib.Algebra.BigOperators.Fin
import Mathlib.Data.List.TakeWhile
import Mathlib.Tactic.Ring

/-!
# The value of a run by position

A run is read as a number in decimal: the weight `w` at a position stands for `w % 10`, which is
never negative, times the power of ten of that position (`value_eq_sum`). The sign is decided by
the first weight alone, and by the weight itself: ten and minus ten are the digit zero there, and no
sign.

Together with the extent of the run (`length_le_length_run`) that is all that reading a number does
(`read_by_position`).
-/

namespace Contour

/-- A digit in front of others has the highest power of ten. -/
theorem Decimal.value_cons (d : Nat) (ds : List Nat) :
    value (d :: ds) = d * 10 ^ ds.length + value ds := by
  rw [value_eq, value_eq, List.reverse_cons, Nat.ofDigits_append, Nat.ofDigits_singleton,
    List.length_reverse]
  ring

namespace Numeral

/-! ## One weight -/

/-- The digit of a weight is its remainder, whatever its sign. -/
theorem cast_digit (w : Int64) : (digit w : Int) = w.toInt % 10 := by
  have hresidue := toInt_residue w
  have hdiv := Int.mul_tdiv_add_tmod w.toInt 10
  have habove := Int.tmod_lt_of_pos w.toInt (show (0 : Int) < 10 by decide)
  have hbelow := Int.lt_tmod_of_pos w.toInt (show (0 : Int) < 10 by decide)
  simp only [digit, hresidue]
  split <;> omega

/-! ## A whole run -/

/-- The digits of a run, each times the power of ten of its position. -/
theorem value_eq_sum (r : List Delta) :
    ((Decimal.value (r.map fun d => digit d.weight) : Nat) : Int) =
      ∑ j : Fin r.length, r[j].weight.toInt % 10 * 10 ^ (r.length - 1 - j) := by
  induction r with
  | nil => rfl
  | cons d r ih =>
    -- A digit after the first is one place further in a run that is longer by one.
    have hpower (j : Fin r.length) : r.length + 1 - 1 - (j.succ : Nat) = r.length - 1 - j := by
      rw [Fin.val_succ]
      omega
    have hsplit := Fin.sum_univ_succ fun j : Fin (r.length + 1) =>
      (d :: r)[j].weight.toInt % 10 * 10 ^ (r.length + 1 - 1 - (j : Nat))
    simp only [hpower] at hsplit
    refine Eq.trans ?_ hsplit.symm
    rw [List.map_cons, Decimal.value_cons, Nat.cast_add, Nat.cast_mul, Nat.cast_pow, ih, cast_digit,
      List.length_map]
    rfl

/-- The sign of a run: a first weight of zero makes it negative. -/
def signOf (r : List Delta) : Int := if r.head?.map Delta.weight = some 0 then -1 else 1

theorem valueOf_eq_signOf_mul (r : List Delta) :
    valueOf r = signOf r * (Decimal.value (r.map fun d => digit d.weight) : Nat) := by
  cases r with
  | nil => rfl
  | cons d r =>
    by_cases hd : d.weight = 0
    · -- A lone zero has a sign too, which makes no difference to it.
      obtain ⟨index, weight⟩ := d
      subst hd
      have hsign : signOf (⟨index, 0⟩ :: r) = -1 := rfl
      rw [hsign]
      cases r with
      | nil => simp [valueOf, Decimal.value, show digit 0 = 0 from rfl]
      | cons e r => simp [valueOf]
    · have hsign : signOf (d :: r) = 1 := by simp [signOf, hd]
      rw [valueOf_cons_of_ne hd, hsign, one_mul]

/-! ## Reading -/

/-- No longer run stands at the start of the stream. -/
theorem length_le_length_run {ds s : List Delta} (hs : s <+: ds) (h : ∀ d ∈ s, d.index = 0) :
    s.length ≤ (run ds).length := by
  obtain ⟨rest, rfl⟩ := hs
  rw [run, List.takeWhile_append_of_pos fun d hd => by simp [h d hd], List.length_append]
  omega

theorem index_of_mem_run {ds : List Delta} {d : Delta} (h : d ∈ run ds) : d.index = 0 := by
  rw [run] at h
  exact eq_of_beq (List.mem_takeWhile_imp h :)

/-- Reading takes the longest run at the start of the stream. Without one it gives the default;
otherwise it gives the sum of the weights, each reduced to its remainder modulo ten and times the
power of ten of its position, with a negative sign exactly if the first weight is zero. -/
theorem read_by_position (ds : List Delta) (default : Int) :
    ∃ r, r <+: ds ∧ (∀ d ∈ r, d.index = 0) ∧
      (∀ s, s <+: ds → (∀ d ∈ s, d.index = 0) → s.length ≤ r.length) ∧
      (r = [] → read ds default = ⟨default, 0, false⟩) ∧
      (r ≠ [] → read ds default =
        ⟨(if r.head?.map Delta.weight = some 0 then -1 else 1) *
            ∑ j : Fin r.length, r[j].weight.toInt % 10 * 10 ^ (r.length - 1 - j),
          r.length, true⟩) := by
  refine ⟨run ds, List.takeWhile_prefix _, fun d hd => index_of_mem_run hd,
    fun s hs h => length_le_length_run hs h, fun hnone => ?_, fun hrun => ?_⟩
  · rw [read, hnone]
  · rw [read_of_run rfl hrun, valueOf_eq_signOf_mul, value_eq_sum, signOf]

/-- A first ten is a digit and a first zero is a sign; the least weight stands for the digit two. -/
example : (read [⟨0, 10⟩, ⟨0, -3⟩, ⟨1, 2⟩] 5).value = 7 ∧
    (read [⟨0, 0⟩, ⟨0, -10⟩, ⟨0, Int64.minValue⟩] 5).value = -2 := by decide

end Numeral

end Contour
