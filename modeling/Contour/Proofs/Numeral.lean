import Contour.Numeral
import Contour.Proofs.Decimal

/-!
# Writing and reading numbers as runs

Reading a run that `encode` wrote gives the number back, whatever follows the run
(`read_encode_append`), and the runs that `encode` writes are these and no others
(`encode_valueOf_eq_iff`): a lone zero, digits of which the first is not zero (`IsPlain`), and such
digits after a zero that stands for the sign. Every other spelling of a number is read and then
written differently.
-/

namespace Contour.Numeral

/-! ## Digits -/

/-- Digits of which the first is not zero. -/
structure IsPlain (r : List Delta) : Prop where
  /-- Every weight is a digit. -/
  digits : ∀ e ∈ r, 0 ≤ e.weight ∧ e.weight ≤ 9
  first : ∃ e ∈ r.head?, 1 ≤ e.weight

theorem digit_digitDelta : ∀ d < 10, digit (digitDelta d).weight = d := by decide

theorem toInt_digitDelta : ∀ d < 10, (digitDelta d).weight.toInt = d := by decide

theorem toInt_residue (w : Int64) : (Delta.residue w).toInt = w.toInt.tmod 10 := by
  rw [Delta.residue, Int64.toInt_mod]; rfl

theorem digit_lt (w : Int64) : digit w < 10 := by
  have h := toInt_residue w
  have := Int.tmod_lt_of_pos w.toInt (show (0 : Int) < 10 by decide)
  simp only [digit]
  split <;> omega

/-- A weight that is a digit stands for itself. -/
theorem digit_eq_toNat {w : Int64} (h0 : 0 ≤ w) (h9 : w ≤ 9) : digit w = w.toInt.toNat := by
  have h0' : 0 ≤ w.toInt := Int64.le_iff_toInt_le.mp h0
  have h9' : w.toInt ≤ 9 := Int64.le_iff_toInt_le.mp h9
  have hr : (Delta.residue w).toInt = w.toInt := by
    rw [toInt_residue, Int.tmod_eq_emod_of_nonneg h0']
    omega
  simp only [digit, hr]
  rw [if_neg (by omega)]

theorem digitDelta_digit {e : Delta} (hi : e.index = 0) (h : 0 ≤ e.weight ∧ e.weight ≤ 9) :
    digitDelta (digit e.weight) = e := by
  have h0 : 0 ≤ e.weight.toInt := Int64.le_iff_toInt_le.mp h.1
  obtain ⟨index, w⟩ := e
  simp only at hi
  subst hi
  simp only [digitDelta, digit_eq_toNat h.1 h.2, Delta.mk.injEq, true_and]
  rw [← Int64.ofInt_eq_ofNat, Int.toNat_of_nonneg h0, Int64.ofInt_toInt]

theorem map_digit_map_digitDelta {ds : List Nat} (h : ∀ d ∈ ds, d < 10) :
    (ds.map digitDelta).map (fun e => digit e.weight) = ds := by
  rw [List.map_map]
  exact (List.map_congr_left fun d hd => digit_digitDelta d (h d hd)).trans (List.map_id ds)

theorem map_digitDelta_map_digit {r : List Delta} (hi : ∀ e ∈ r, e.index = 0)
    (hw : ∀ e ∈ r, 0 ≤ e.weight ∧ e.weight ≤ 9) :
    (r.map fun e => digit e.weight).map digitDelta = r := by
  rw [List.map_map]
  exact (List.map_congr_left fun e he => digitDelta_digit (hi e he) (hw e he)).trans (List.map_id r)

/-! ## What is written -/

theorem encode_zero : encode 0 = [⟨0, 0⟩] := rfl

theorem encode_of_pos {n : Int} (hn : 0 < n) :
    encode n = (Decimal.digits n.natAbs).map digitDelta := by
  rw [encode, if_neg (by omega), if_neg (by omega)]

theorem encode_of_neg {n : Int} (hn : n < 0) :
    encode n = ⟨0, 0⟩ :: (Decimal.digits n.natAbs).map digitDelta := by
  rw [encode, if_neg (by omega), if_pos hn]; rfl

theorem isPlain_digits {n : Nat} (hn : n ≠ 0) : IsPlain ((Decimal.digits n).map digitDelta) := by
  refine ⟨fun e he => ?_, ?_⟩
  · obtain ⟨d, hd, rfl⟩ := List.mem_map.mp he
    have hd := Decimal.digits_lt hd
    have hw := toInt_digitDelta d hd
    exact ⟨Int64.le_iff_toInt_le.mpr (by rw [hw]; exact Int.natCast_nonneg d),
      Int64.le_iff_toInt_le.mpr (by rw [hw, show (9 : Int64).toInt = 9 from rfl]; omega)⟩
  · obtain ⟨d, ds, h, h0⟩ := Decimal.digits_eq_cons hn
    have hd : d < 10 := Decimal.digits_lt (n := n) (h ▸ List.mem_cons_self)
    refine ⟨digitDelta d, by rw [h]; rfl, Int64.le_iff_toInt_le.mpr ?_⟩
    rw [toInt_digitDelta d hd, show (1 : Int64).toInt = 1 from rfl]
    omega

theorem index_of_mem_encode {n : Int} {e : Delta} (he : e ∈ encode n) : e.index = 0 := by
  have hdigits : e ∈ (Decimal.digits n.natAbs).map digitDelta → e.index = 0 := by
    intro h
    obtain ⟨d, -, rfl⟩ := List.mem_map.mp h
    rfl
  rcases Int.lt_trichotomy n 0 with hn | rfl | hn
  · rw [encode_of_neg hn, List.mem_cons] at he
    rcases he with rfl | he
    · rfl
    · exact hdigits he
  · rw [encode_zero, List.mem_singleton] at he
    rw [he]
  · rw [encode_of_pos hn] at he
    exact hdigits he

theorem encode_ne_nil (n : Int) : encode n ≠ [] := by
  rcases Int.lt_trichotomy n 0 with hn | rfl | hn
  · rw [encode_of_neg hn]; simp
  · rw [encode_zero]; simp
  · rw [encode_of_pos hn]
    simp [Decimal.digits_ne_nil]

/-! ## What is read -/

/-- A run of index zero in front of a delta of another index is taken whole. -/
theorem run_append {r rest : List Delta} (hr : ∀ e ∈ r, e.index = 0)
    (hrest : ∀ e ∈ rest.head?, e.index ≠ 0) : run (r ++ rest) = r := by
  rw [run, List.takeWhile_append_of_pos fun e he => by simp [hr e he]]
  cases rest with
  | nil => simp
  | cons e rest => simp [hrest e rfl]

theorem run_of_index_zero {r : List Delta} (hr : ∀ e ∈ r, e.index = 0) : run r = r := by
  have h := run_append hr (show ∀ e ∈ ([] : List Delta).head?, e.index ≠ 0 by simp)
  rwa [List.append_nil] at h

theorem read_of_run {ds r : List Delta} (h : run ds = r) (hr : r ≠ []) (d : Int) :
    read ds d = ⟨valueOf r, r.length, true⟩ := by
  rw [read, h]
  cases r with
  | nil => exact absurd rfl hr
  | cons e r => rfl

theorem read_of_not_run {ds : List Delta} (h : ∀ e ∈ ds.head?, e.index ≠ 0) (d : Int) :
    read ds d = ⟨d, 0, false⟩ := by
  rw [read, show run ds = [] from run_append (r := []) (by simp) h]

/-- A run whose first weight is not zero has no sign. -/
theorem valueOf_cons_of_ne {e : Delta} {r : List Delta} (h : e.weight ≠ 0) :
    valueOf (e :: r) = (Decimal.value ((e :: r).map fun d => digit d.weight) : Nat) := by
  cases r with
  | nil => rfl
  | cons e' r => simp [valueOf, h]

/-- A zero in front of other digits is a sign. -/
theorem valueOf_zero_cons {r : List Delta} (hr : r ≠ []) :
    valueOf (⟨0, 0⟩ :: r) = -(Decimal.value (r.map fun d => digit d.weight) : Nat) := by
  cases r with
  | nil => exact absurd rfl hr
  | cons e r =>
    have h0 : digit (0 : Int64) = 0 := rfl
    simp [valueOf, Decimal.value, h0]

/-! ## Plain runs -/

namespace IsPlain

variable {r : List Delta}

/-- A plain run is a first digit other than zero and digits. -/
theorem eq_cons (h : IsPlain r) : ∃ e r', r = e :: r' ∧ e.weight ≠ 0 ∧ digit e.weight ≠ 0 := by
  obtain ⟨e, he, h1⟩ := h.first
  cases r with
  | nil => cases he
  | cons e' r' =>
    cases he
    have h0 := h.digits e List.mem_cons_self
    have h1' : (1 : Int) ≤ e.weight.toInt := Int64.le_iff_toInt_le.mp h1
    refine ⟨e, r', rfl, fun hw => ?_, ?_⟩
    · rw [hw] at h1
      exact absurd h1 (by decide)
    · rw [digit_eq_toNat h0.1 h0.2]
      omega

theorem ne_nil (h : IsPlain r) : r ≠ [] := by
  obtain ⟨e, r', rfl, -⟩ := h.eq_cons
  simp

theorem valueOf_eq (h : IsPlain r) :
    valueOf r = (Decimal.value (r.map fun d => digit d.weight) : Nat) := by
  obtain ⟨e, r', rfl, h0, -⟩ := h.eq_cons
  exact valueOf_cons_of_ne h0

theorem value_ne_zero (h : IsPlain r) : Decimal.value (r.map fun d => digit d.weight) ≠ 0 := by
  obtain ⟨e, r', rfl, -, h0⟩ := h.eq_cons
  exact Decimal.value_ne_zero (by simp [digit_lt]) h0

theorem map_digits_value (h : IsPlain r) (hi : ∀ e ∈ r, e.index = 0) :
    (Decimal.digits (Decimal.value (r.map fun d => digit d.weight))).map digitDelta = r := by
  have hback := map_digitDelta_map_digit hi h.digits
  obtain ⟨e, r', rfl, -, h0⟩ := h.eq_cons
  rw [List.map_cons] at hback ⊢
  rwa [Decimal.digits_value (by simp [digit_lt]) h0]

end IsPlain

/-! ## Both ways -/

theorem valueOf_encode (n : Int) : valueOf (encode n) = n := by
  have hvalue : Decimal.value (((Decimal.digits n.natAbs).map digitDelta).map
      fun d => digit d.weight) = n.natAbs := by
    rw [map_digit_map_digitDelta fun _ => Decimal.digits_lt, Decimal.value_digits]
  rcases Int.lt_trichotomy n 0 with hn | rfl | hn
  · rw [encode_of_neg hn, valueOf_zero_cons (by simp [Decimal.digits_ne_nil]), hvalue]
    omega
  · rfl
  · rw [encode_of_pos hn, (isPlain_digits (by omega)).valueOf_eq, hvalue]
    omega

/-- A number is read back, and exactly its run is taken, in front of whatever is no digit. -/
theorem read_encode_append (n d : Int) {rest : List Delta}
    (hrest : ∀ e ∈ rest.head?, e.index ≠ 0) :
    read (encode n ++ rest) d = ⟨n, (encode n).length, true⟩ := by
  rw [read_of_run (run_append (fun _ => index_of_mem_encode) hrest) (encode_ne_nil n),
    valueOf_encode]

theorem encode_valueOf_of_isPlain {r : List Delta} (hi : ∀ e ∈ r, e.index = 0) (h : IsPlain r) :
    encode (valueOf r) = r := by
  have h0 := h.value_ne_zero
  rw [h.valueOf_eq, encode_of_pos (by omega), Int.natAbs_natCast, h.map_digits_value hi]

theorem encode_valueOf_of_sign {r : List Delta} (hi : ∀ e ∈ r, e.index = 0) (h : IsPlain r) :
    encode (valueOf (⟨0, 0⟩ :: r)) = ⟨0, 0⟩ :: r := by
  have h0 := h.value_ne_zero
  rw [valueOf_zero_cons h.ne_nil, encode_of_neg (by omega), Int.natAbs_neg, Int.natAbs_natCast,
    h.map_digits_value hi]

/-- The runs that are written, among all runs. -/
theorem encode_valueOf_eq_iff {r : List Delta} (hi : ∀ e ∈ r, e.index = 0) :
    encode (valueOf r) = r ↔
      r = [⟨0, 0⟩] ∨ IsPlain r ∨ ∃ r', r = ⟨0, 0⟩ :: r' ∧ IsPlain r' := by
  constructor
  · intro h
    rw [← h]
    rcases Int.lt_trichotomy (valueOf r) 0 with hn | hn | hn
    · exact .inr (.inr ⟨_, encode_of_neg hn, isPlain_digits (by omega)⟩)
    · exact .inl (by rw [hn, encode_zero])
    · exact .inr (.inl (by rw [encode_of_pos hn]; exact isPlain_digits (by omega)))
  · rintro (rfl | h | ⟨r', rfl, h⟩)
    · rfl
    · exact encode_valueOf_of_isPlain hi h
    · exact encode_valueOf_of_sign (fun e he => hi e (List.mem_cons_of_mem _ he)) h

/-- Writing and reading are inverse to each other: a number is read back in front of whatever is no
digit, and a run is written back exactly if it is a lone zero, plain digits, or plain digits after a
sign. -/
theorem read_encode_and_encode_read_iff (d : Int) :
    (∀ (n : Int) (rest : List Delta), (∀ e ∈ rest.head?, e.index ≠ 0) →
      read (encode n ++ rest) d = ⟨n, (encode n).length, true⟩) ∧
    ∀ r : List Delta, r ≠ [] → (∀ e ∈ r, e.index = 0) →
      (encode (read r d).value = r ↔
        r = [⟨0, 0⟩] ∨ IsPlain r ∨ ∃ r', r = ⟨0, 0⟩ :: r' ∧ IsPlain r') := by
  refine ⟨fun n rest hrest => read_encode_append n d hrest, fun r hr hi => ?_⟩
  rw [read_of_run (run_of_index_zero hi) hr]
  exact encode_valueOf_eq_iff hi

/-- Minus forty in front of an operation, and the digits two and minus six, of which the second is
written as a four. -/
theorem read_encode_and_encode_read_iff_forty :
    read (encode (-40) ++ [⟨1, 2⟩]) 7 = ⟨-40, (encode (-40)).length, true⟩ ∧
      encode (read [⟨0, 2⟩, ⟨0, -6⟩] 7).value ≠ [⟨0, 2⟩, ⟨0, -6⟩] := by
  obtain ⟨hread, hwrite⟩ := read_encode_and_encode_read_iff 7
  refine ⟨hread (-40) [⟨1, 2⟩] (by decide), fun h => ?_⟩
  rcases (hwrite [⟨0, 2⟩, ⟨0, -6⟩] (by decide) (by decide)).mp h with h | h | ⟨r', h, -⟩
  · exact absurd h (by decide)
  · exact absurd (h.digits ⟨0, -6⟩ (by decide)) (by decide)
  · rw [List.cons.injEq] at h
    exact absurd h.1 (by decide)

end Contour.Numeral
