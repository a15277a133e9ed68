import Contour.Proofs.Cbor
import Contour.Proofs.Decimal
import Contour.Proofs.Utf8
import Contour.Shelf.Storage

/-!
# Rows in files

Rows are read back from the bytes that were written of them, whatever they hold
(`ofBytes?_toBytes`): a count shows where its bytes end, so that each field and each row is read
back with any bytes after it.
-/

namespace Contour.Shelf

/-! ## Fields -/

/-- The byte of a digit is not the one that ends a count. -/
theorem ne_countEnd_of_mem_encode_nat {n : Nat} {b : UInt8} (h : b ∈ Utf8.encode (Decimal.nat n)) :
    (b != countEnd) = true := by
  obtain ⟨c, hc, hb⟩ := List.mem_flatMap.mp h
  obtain ⟨d, hd, rfl⟩ := List.mem_map.mp hc
  have hbytes : ∀ d < 10, ∀ b ∈ Utf8.encodeChar (Decimal.digitChar d), (b != countEnd) = true := by
    decide +kernel
  exact hbytes d (Decimal.digits_lt hd) b hb

theorem counted?_append (bs rest : List UInt8) :
    counted? (counted bs ++ rest) = some (bs, rest) := by
  have hcount : ∀ b ∈ Utf8.encode (Decimal.nat bs.length), (b != countEnd) = true :=
    fun b hb => ne_countEnd_of_mem_encode_nat hb
  rw [counted?, counted, List.append_assoc, List.takeWhile_append_of_pos hcount,
    List.dropWhile_append_of_pos hcount]
  simp [Utf8.decode_encode, Decimal.nat?_nat, Cbor.take?_append]

theorem counted_ne_nil (bs : List UInt8) : counted bs ≠ [] := by
  simp [counted]

theorem fields?_append (fs : List (List UInt8)) (rest : List UInt8) :
    fields? fs.length (fs.flatMap counted ++ rest) = some (fs, rest) := by
  induction fs with
  | nil => rfl
  | cons f fs ih =>
    rw [List.length_cons, fields?, List.flatMap_cons, List.append_assoc, counted?_append]
    simp [ih]

/-! ## Rows -/

theorem ofFields?_fields (r : Row) : Row.ofFields? (Row.fields r) = some r := by
  simp [Row.fields, Row.ofFields?, Location.textOf, Utf8.decode_encode, Decimal.int?_int]

theorem rowBytes_ne_nil (r : Row) : rowBytes r ≠ [] := by
  simp [rowBytes, Row.fields, counted_ne_nil]

theorem rowsFor_flatMap {fuel : Nat} {rows : List Row} (h : rows.length ≤ fuel) :
    rowsFor fuel (rows.flatMap rowBytes) = some rows := by
  induction rows generalizing fuel with
  | nil => cases fuel <;> rfl
  | cons r rows ih =>
    cases fuel with
    | zero => simp at h
    | succ fuel =>
      obtain ⟨b, bs, hbytes⟩ := List.exists_cons_of_ne_nil
        (List.append_ne_nil_of_left_ne_nil (rowBytes_ne_nil r) (rows.flatMap rowBytes))
      have hfields : fields? 5 (rowBytes r ++ rows.flatMap rowBytes) =
          some (Row.fields r, rows.flatMap rowBytes) :=
        fields?_append (Row.fields r) _
      rw [List.flatMap_cons, hbytes, rowsFor, ← hbytes, hfields]
      simp [ofFields?_fields, ih (Nat.le_of_succ_le_succ h)]

theorem length_le_length_flatMap_rowBytes (rows : List Row) :
    rows.length ≤ (rows.flatMap rowBytes).length := by
  induction rows with
  | nil => simp
  | cons r rows ih =>
    have := List.length_pos_iff.mpr (rowBytes_ne_nil r)
    rw [List.flatMap_cons, List.length_append, List.length_cons]
    omega

theorem toBytes_ne_nil (rows : List Row) : toBytes rows ≠ [] := by
  have hmark : fileMark ≠ [] := by decide +kernel
  simp [toBytes, hmark]

/-- Rows are read back from their file. -/
theorem ofBytes?_toBytes (rows : List Row) : ofBytes? (toBytes rows) = some rows := by
  have hlength : rows.length ≤ (fileMark ++ rows.flatMap rowBytes).length := by
    rw [List.length_append]
    exact (length_le_length_flatMap_rowBytes rows).trans (Nat.le_add_left _ _)
  rw [ofBytes?, if_neg (by simpa using toBytes_ne_nil rows), toBytes, List.take_left,
    if_pos rfl, List.drop_left]
  exact rowsFor_flatMap hlength

end Contour.Shelf
