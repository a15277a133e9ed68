import Contour.Proofs.Machine.Table
import Mathlib.Algebra.Order.Ring.Int

/-!
# Counts and positions in words

The machine computes counts, offsets and positions in words of 64 bits, after bringing arguments
into the range of counts. For stacks and programs shorter than `2 ^ 61` none of these computations
wraps, and none can tell an argument from the nearest count: `placeIndex_toCount` and
`pickIndex_toCount` give the positions of `place` and `pick`, and `jump_toCount` the target of a
jump, by the whole numbers that are meant.
-/

namespace Contour.Machine

open Table (resolve landing)

/-! ## Words -/

theorem toInt_add_of_fits {a b : Int64} (h₁ : -2 ^ 63 ≤ a.toInt + b.toInt)
    (h₂ : a.toInt + b.toInt < 2 ^ 63) : (a + b).toInt = a.toInt + b.toInt := by
  rw [Int64.toInt_add, Int.bmod_eq_of_le (by omega) (by omega)]

theorem toInt_sub_of_fits {a b : Int64} (h₁ : -2 ^ 63 ≤ a.toInt - b.toInt)
    (h₂ : a.toInt - b.toInt < 2 ^ 63) : (a - b).toInt = a.toInt - b.toInt := by
  rw [Int64.toInt_sub, Int.bmod_eq_of_le (by omega) (by omega)]

theorem toInt_neg_of_fits {a : Int64} (h : -2 ^ 63 < a.toInt) : (-a).toInt = -a.toInt := by
  have := a.toInt_lt
  rw [Int64.toInt_neg, Int.bmod_eq_of_le (by omega) (by omega)]

/-- A count is the argument, brought into the range of counts. -/
theorem toInt_toCount (k : Int) : (toCount k).toInt = max (-2 ^ 62) (min (2 ^ 62) k) := by
  rw [toCount, Int64.toInt_ofInt_of_le] <;> simp only [countBound] <;> omega

theorem toInt_ofNat_of_small {n : Nat} (h : n < 2 ^ 61) : (Int64.ofNat n).toInt = n :=
  Int64.toInt_ofNat_of_lt (by omega)

/-! ## Positions -/

theorem position_eq_resolve {pos n last : Int64} (hlast : 0 ≤ last.toInt)
    (h₁ : -2 ^ 63 ≤ pos.toInt + n.toInt) (h₂ : pos.toInt + n.toInt < 2 ^ 63) :
    position pos n last = resolve pos.toInt n.toInt last.toInt := by
  have hsum := toInt_add_of_fits h₁ h₂
  have h0 : (0 : Int64).toInt = 0 := rfl
  have hshifted : (if pos < 0 then (if pos + n < 0 then 0 else pos + n) else pos).toInt =
      if pos.toInt < 0 then max 0 (pos.toInt + n.toInt) else pos.toInt := by
    simp only [Int64.lt_iff_toInt_lt, h0, hsum]
    split
    · split <;> omega
    · rfl
  simp only [position, resolve]
  generalize (if pos < 0 then (if pos + n < 0 then 0 else pos + n) else pos) = p at hshifted ⊢
  rw [apply_ite Int64.toInt]
  simp only [Int64.lt_iff_toInt_lt]
  split at hshifted
  · rename_i hneg
    rw [if_pos hneg]
    split <;> omega
  · rename_i hneg
    rw [if_neg hneg]
    split <;> omega

theorem resolve_of_lt_neg {position n : Int} (last : Int) (hn : 0 ≤ n) (h : position < -n) :
    resolve position n last = 0 := by
  rw [resolve, if_pos (by omega)]
  omega

theorem resolve_of_le {position last : Int} (n : Int) (h0 : 0 ≤ position) (h : last ≤ position) :
    resolve position n last = last.toNat := by
  rw [resolve, if_neg (by omega)]
  omega

/-- A position that is beyond the list stays there if its argument is brought to the nearest
count. -/
theorem resolve_clamp (k : Int) {base n last : Int} (hbase : base ≤ n) (hlast : last ≤ n)
    (h0 : 0 ≤ n) (hn : n < 2 ^ 61) {c : Int} (hc : c = max (-2 ^ 62) (min (2 ^ 62) k)) :
    resolve (if 0 ≤ c then base - c else -c - 1) n last =
      resolve (if 0 ≤ k then base - k else -k - 1) n last := by
  by_cases hlarge : 2 ^ 62 < k
  · rw [if_pos (by omega), if_pos (by omega), resolve_of_lt_neg last h0 (by omega),
      resolve_of_lt_neg last h0 (by omega)]
  by_cases hsmall : k < -2 ^ 62
  · rw [if_neg (by omega), if_neg (by omega), resolve_of_le n (by omega) (by omega),
      resolve_of_le n (by omega) (by omega)]
  · rw [show c = k by omega]

theorem zero_le_toCount {k : Int} : 0 ≤ toCount k ↔ 0 ≤ (toCount k).toInt :=
  Int64.le_iff_toInt_le

/-- Where `place k` inserts: `k` from the top, or `-k - 1` from the bottom. -/
theorem placeIndex_toCount (k : Int) {n : Nat} (hn : n < 2 ^ 61) :
    placeIndex (toCount k) (Int64.ofNat n) = resolve (if 0 ≤ k then n - k else -k - 1) n n := by
  have hk := toInt_toCount k
  have hlength := toInt_ofNat_of_small hn
  have h1 : (1 : Int64).toInt = 1 := rfl
  have hneg := toInt_neg_of_fits (a := toCount k) (by omega)
  have hpos : (if 0 ≤ toCount k then Int64.ofNat n - toCount k else -toCount k - 1).toInt =
      if 0 ≤ (toCount k).toInt then n - (toCount k).toInt else -(toCount k).toInt - 1 := by
    simp only [zero_le_toCount]
    split
    · rw [toInt_sub_of_fits, hlength] <;> omega
    · rw [toInt_sub_of_fits, hneg, h1] <;> omega
  rw [placeIndex, position_eq_resolve, hpos, hlength,
    resolve_clamp k (le_refl _) (le_refl _) (by omega) (by omega) hk]
  · omega
  · rw [hpos]; split <;> omega
  · rw [hpos]; split <;> omega

/-- Where `pick k` finds its element: `k` below the top, or `-k - 1` from the bottom. -/
theorem pickIndex_toCount (k : Int) {n : Nat} (h0 : 0 < n) (hn : n < 2 ^ 61) :
    pickIndex (toCount k) (Int64.ofNat n) =
      resolve (if 0 ≤ k then n - k - 1 else -k - 1) n (n - 1) := by
  have hk := toInt_toCount k
  have hlength := toInt_ofNat_of_small hn
  have h1 : (1 : Int64).toInt = 1 := rfl
  have hneg := toInt_neg_of_fits (a := toCount k) (by omega)
  have hlast : (Int64.ofNat n - 1).toInt = n - 1 := by
    rw [toInt_sub_of_fits, hlength, h1] <;> omega
  have hpos : (if 0 ≤ toCount k then Int64.ofNat n - toCount k - 1 else -toCount k - 1).toInt =
      if 0 ≤ (toCount k).toInt then n - 1 - (toCount k).toInt else -(toCount k).toInt - 1 := by
    simp only [zero_le_toCount]
    split
    · have hsub : (Int64.ofNat n - toCount k).toInt = n - (toCount k).toInt := by
        rw [toInt_sub_of_fits, hlength] <;> omega
      rw [toInt_sub_of_fits, hsub, h1] <;> omega
    · rw [toInt_sub_of_fits, hneg, h1] <;> omega
  rw [pickIndex, position_eq_resolve, hpos, hlength, hlast, sub_right_comm (n : Int) k 1,
    resolve_clamp k (by omega) (by omega) (by omega) (by omega) hk]
  · omega
  · rw [hpos]; split <;> omega
  · rw [hpos]; split <;> omega

/-! ## Jumps -/

theorem jump_toCount {σ : Type} (m : Machine σ) (k : Int) {n : Nat} (hn : n < 2 ^ 61)
    (h0 : 0 ≤ m.ip) (hip : m.ip < n) :
    m.jump (toCount k) n = { m with ip := landing n (m.ip + if k = 0 then 1 else k) } := by
  have hk := toInt_toCount k
  have hlength := toInt_ofNat_of_small hn
  have hword : (Int64.ofInt m.ip).toInt = m.ip := Int64.toInt_ofInt_of_le (by omega) (by omega)
  have hzero : toCount k = 0 ↔ k = 0 := by
    rw [← Int64.toInt_inj, hk, show (0 : Int64).toInt = 0 from rfl]
    omega
  have hoffset : (if toCount k == 0 then 1 else toCount k).toInt =
      if k = 0 then 1 else (toCount k).toInt := by
    simp only [beq_iff_eq, hzero]
    split <;> rfl
  have htarget : (Int64.ofInt m.ip + if toCount k == 0 then 1 else toCount k).toInt =
      m.ip + if k = 0 then 1 else (toCount k).toInt := by
    rw [toInt_add_of_fits, hword, hoffset] <;> rw [hword, hoffset] <;> split <;> omega
  simp only [jump, landing, Int64.lt_iff_toInt_lt, htarget, hlength,
    show (0 : Int64).toInt = 0 from rfl]
  congr 1
  by_cases hk0 : k = 0
  · simp only [if_pos hk0]
    split <;> [skip; split] <;> omega
  · simp only [if_neg hk0]
    split <;> [skip; split] <;> omega

/-! ## Powers -/

end Contour.Machine
