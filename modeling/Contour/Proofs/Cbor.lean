import Contour.Cbor
import Mathlib.Algebra.Group.Int.Defs
import Mathlib.Algebra.Group.Nat.Defs
import Mathlib.Tactic.Common

/-!
# Binary objects read back

What is written in the shortest form is read as the item that it stands for, whatever bytes follow
it. `head?_head` is this for a head, `tagged_int` for a whole number, and `tagged_array` and
`tagged_map` for the head of a container, which then reads as many items as the head says, unless
these are more than `maxElements`. `many_flatMap` reads items that were written one after another.
A head holds eight bytes of a number at most, so what it says is the number modulo `2 ^ 64`.
-/

namespace Contour.Cbor

/-! ## Numbers -/

@[simp] theorem length_bigEndian (width n : Nat) : (bigEndian width n).length = width := by
  induction width generalizing n with
  | zero => rfl
  | succ w ih => simp [bigEndian, ih]

theorem ofBigEndian_append_singleton (bs : Bytes) (b : UInt8) :
    ofBigEndian (bs ++ [b]) = ofBigEndian bs * 256 + b.toNat := by
  simp [ofBigEndian]

theorem ofBigEndian_bigEndian (width n : Nat) :
    ofBigEndian (bigEndian width n) = n % 256 ^ width := by
  induction width generalizing n with
  | zero => simp [bigEndian, ofBigEndian, Nat.mod_one]
  | succ w ih =>
    have hbyte : (UInt8.ofNat (n % 256)).toNat = n % 256 := by simp
    rw [bigEndian, ofBigEndian_append_singleton, ih, hbyte, Nat.pow_succ', Nat.mod_mul]
    omega

theorem take?_append (bs rest : Bytes) : take? bs.length (bs ++ rest) = some (bs, rest) := by
  simp [take?]

theorem take?_bigEndian (width n : Nat) (rest : Bytes) :
    take? width (bigEndian width n ++ rest) = some (bigEndian width n, rest) := by
  simpa using take?_append (bigEndian width n) rest

/-! ## Heads -/

/-- The first byte of a head holds the major type and the additional information. -/
theorem toNat_first {major info : Nat} (hmajor : major < 8) (hinfo : info < 32) :
    (UInt8.ofNat (major * 32 + info)).toNat = major * 32 + info :=
  UInt8.toNat_ofNat_of_lt' (by simp [UInt8.size]; omega)

/-- A head with its number in the bytes after the first one. -/
theorem head?_wide {major info width : Nat} (hmajor : major < 7)
    (hwidth : (info, width) ∈ [(24, 1), (25, 2), (26, 4), (27, 8)]) (n : Nat) (rest : Bytes) :
    head? (UInt8.ofNat (major * 32 + info) :: bigEndian width n ++ rest) =
      some (⟨major, info, n % 256 ^ width⟩, rest) := by
  have hinfo : 24 ≤ info ∧ info < 32 := by grind
  have hfirst := toNat_first (by omega : major < 8) hinfo.2
  have hdiv : (major * 32 + info) / 32 = major := by omega
  have hmod : (major * 32 + info) % 32 = info := by omega
  have hseven : ¬ major = 7 := by omega
  simp only [List.mem_cons, Prod.mk.injEq, List.not_mem_nil, or_false] at hwidth
  obtain ⟨rfl, rfl⟩ | ⟨rfl, rfl⟩ | ⟨rfl, rfl⟩ | ⟨rfl, rfl⟩ := hwidth <;>
    simp only [head?, List.cons_append, hfirst, hdiv, hmod, take?_bigEndian, ofBigEndian_bigEndian,
      Option.map_some] <;>
    simp [hseven]

/-- A written head is read back, unless it is of the last major type, where short numbers are
refused. -/
theorem head?_head {major : Nat} (hmajor : major < 7) (n : Nat) (rest : Bytes) :
    ∃ info, info < 31 ∧ head? (head major n ++ rest) = some (⟨major, info, n % 2 ^ 64⟩, rest) := by
  rw [head]
  split_ifs with h₁ h₂ h₃ h₄
  · have hfirst := toNat_first (by omega : major < 8) (by omega : n < 32)
    have hdiv : (major * 32 + n) / 32 = major := by omega
    have hmod : (major * 32 + n) % 32 = n := by omega
    refine ⟨n, by omega, ?_⟩
    simp only [head?, List.cons_append, List.nil_append, hfirst, hdiv, hmod, if_pos h₁]
    rw [Nat.mod_eq_of_lt (by omega)]
  · refine ⟨24, by omega, ?_⟩
    rw [head?_wide hmajor (by simp), Nat.mod_eq_of_lt (by omega), Nat.mod_eq_of_lt (by omega)]
  · refine ⟨25, by omega, ?_⟩
    rw [head?_wide hmajor (by simp), Nat.mod_eq_of_lt (by omega), Nat.mod_eq_of_lt (by omega)]
  · refine ⟨26, by omega, ?_⟩
    rw [head?_wide hmajor (by simp), Nat.mod_eq_of_lt (by omega), Nat.mod_eq_of_lt (by omega)]
  · exact ⟨27, by omega, head?_wide hmajor (by simp) n rest⟩

theorem head_ne_nil (major n : Nat) : head major n ≠ [] := by
  rw [head]
  split_ifs <;> simp

/-- Only a head of the sixth major type starts a tag. -/
theorem startsTag_head {major : Nat} (hmajor : major < 6) (n : Nat) (rest : Bytes) :
    startsTag (head major n ++ rest) = false := by
  have hfirst (info : Nat) (hinfo : info < 32) := toNat_first (by omega : major < 8) hinfo
  rw [head]
  split_ifs <;>
    simp only [startsTag, List.cons_append, beq_eq_false_iff_ne] <;>
    rw [hfirst _ (by omega)] <;> omega

theorem tagged_head {major : Nat} (hmajor : major < 6) (inner : Option Reader) (n : Nat)
    (rest : Bytes) :
    tagged inner (head major n ++ rest) = untagged inner (head major n ++ rest) := by
  simp [tagged, startsTag_head hmajor]

/-! ## Whole numbers -/

/-- The item that a written number is read as. -/
def Item.ofInt (n : Int) : Item :=
  if n < 0 then .negative (-n - 1).toNat else .unsigned n.toNat

/-- A number that fits eight bytes, whatever its sign, is read back. -/
theorem tagged_int (inner : Option Reader) {n : Int} (hlow : -2 ^ 64 ≤ n) (hhigh : n < 2 ^ 64)
    (rest : Bytes) : tagged inner (int n ++ rest) = some (.ofInt n, rest) := by
  rw [int, Item.ofInt]
  split_ifs with hn
  · obtain ⟨info, -, hread⟩ := head?_head (by omega : 1 < 7) (-n - 1).toNat rest
    rw [tagged_head (by omega), untagged, hread, Nat.mod_eq_of_lt (by omega)]
    rfl
  · obtain ⟨info, -, hread⟩ := head?_head (by omega : 0 < 7) n.toNat rest
    rw [tagged_head (by omega), untagged, hread, Nat.mod_eq_of_lt (by omega)]
    rfl

/-! ## Containers -/

/-- Items that were written one after another are read back, if each one is. -/
theorem many_flatMap {α : Type} {read : Reader} {write : α → Bytes} {item : α → Item}
    (hread : ∀ a rest, read (write a ++ rest) = some (item a, rest)) (as : List α) (rest : Bytes) :
    many read as.length (as.flatMap write ++ rest) = some (as.map item, rest) := by
  induction as with
  | nil => rfl
  | cons a as ih => simp [many, List.append_assoc, hread, ih]

/-- Of the items that were written, only the first ones may be read. -/
theorem many_flatMap_of_le {α : Type} {read : Reader} {write : α → Bytes} {item : α → Item}
    (hread : ∀ a rest, read (write a ++ rest) = some (item a, rest)) {as : List α} {n : Nat}
    (hn : n ≤ as.length) (rest : Bytes) :
    many read n (as.flatMap write ++ rest) =
      some ((as.take n).map item, (as.drop n).flatMap write ++ rest) := by
  have hfirst := many_flatMap hread (as.take n) ((as.drop n).flatMap write ++ rest)
  rwa [← List.append_assoc, ← List.flatMap_append, List.take_append_drop, List.length_take,
    Nat.min_eq_left hn] at hfirst

/-- What an array and a map have in common: the head says how many elements are to be read. -/
theorem elements_definite {major info value : Nat} (hinfo : info < 31) (read : Reader) (per : Nat)
    (bs : Bytes) :
    elements read per ⟨major, info, value⟩ bs =
      if value ≤ maxElements then many read (per * value) bs else none := by
  have hdefinite : Head.isIndefinite ⟨major, info, value⟩ = false := by
    simp only [Head.isIndefinite, beq_eq_false_iff_ne]
    omega
  rw [elements, if_neg (by simp [hdefinite])]

theorem tagged_array (read : Reader) (n : Nat) (bs : Bytes) :
    tagged (some read) (head 4 n ++ bs) =
      if n % 2 ^ 64 ≤ maxElements then
        (many read (n % 2 ^ 64) bs).map fun (is, bs) => (.array is, bs)
      else none := by
  obtain ⟨info, hinfo, hread⟩ := head?_head (by omega : 4 < 7) n bs
  rw [tagged_head (by omega), untagged, hread]
  simp only [Option.bind_eq_bind, Option.bind_some, elements_definite hinfo, Nat.one_mul]
  split_ifs
  · exact Option.map_eq_bind.symm
  · rfl

theorem tagged_map (read : Reader) (n : Nat) (bs : Bytes) :
    tagged (some read) (head 5 n ++ bs) =
      if n % 2 ^ 64 ≤ maxElements then
        (many read (2 * (n % 2 ^ 64)) bs).map fun (is, bs) => (.map is, bs)
      else none := by
  obtain ⟨info, hinfo, hread⟩ := head?_head (by omega : 5 < 7) n bs
  rw [tagged_head (by omega), untagged, hread]
  simp only [Option.bind_eq_bind, Option.bind_some, elements_definite hinfo]
  split_ifs
  · exact Option.map_eq_bind.symm
  · rfl

end Contour.Cbor
