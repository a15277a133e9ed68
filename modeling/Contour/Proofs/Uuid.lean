import Contour.Proofs.Utf8
import Contour.Uuid

/-!
# Identifiers are read back

The written form of an identifier of thirty-two digits is read as that identifier (`parse_text`).
-/

namespace Contour.Uuid

/-- Whether an identifier has its thirty-two digits. -/
def IsValid (u : Uuid) : Prop := u.digits.length = 32 ∧ ∀ d ∈ u.digits, d < 16

instance (u : Uuid) : Decidable u.IsValid := inferInstanceAs (Decidable (_ ∧ _))

/-- The byte of a hexadecimal digit. -/
def hexByte (d : Nat) : UInt8 := UInt8.ofNat (Decimal.hexChar d).toNat

theorem encodeChar_hexChar : ∀ d < 16, Utf8.encodeChar (Decimal.hexChar d) = [hexByte d] := by
  decide

theorem hexDigit?_hexByte : ∀ d < 16,
    Decimal.hexDigit? (Char.ofNat (hexByte d).toNat) = some d := by
  decide

theorem hexDigit?_hexChar : ∀ d < 16, Decimal.hexDigit? (Decimal.hexChar d) = some d := by decide

theorem encode_map_hexChar {ds : List Nat} (h : ∀ d ∈ ds, d < 16) :
    Utf8.encode (ds.map Decimal.hexChar) = ds.map hexByte := by
  rw [Utf8.encode, List.flatMap_map, List.flatMap_congr fun d hd => encodeChar_hexChar d (h d hd)]
  induction ds with
  | nil => rfl
  | cons d ds ih => simpa using ih fun x hx => h x (List.mem_cons_of_mem _ hx)

theorem hexDigits?_map_hexByte {ds : List Nat} (h : ∀ d ∈ ds, d < 16) :
    hexDigits? (ds.map hexByte) = some ds := by
  induction ds with
  | nil => rfl
  | cons d ds ih =>
    rw [hexDigits?] at ih ⊢
    rw [List.map_cons, List.mapM_cons, hexDigit?_hexByte d (h d List.mem_cons_self),
      ih fun x hx => h x (List.mem_cons_of_mem _ hx)]
    rfl

/-- Five groups of the right lengths are put together. -/
theorem grouped_groups {a b c d e : List UInt8} (ha : a.length = 8) (hb : b.length = 4)
    (hc : c.length = 4) (hd : d.length = 4) (he : e.length = 12) {ds : List Nat}
    (hdigits : hexDigits? (a ++ b ++ c ++ d ++ e) = some ds) :
    grouped (a ++ (45 :: b) ++ (45 :: c) ++ (45 :: d) ++ (45 :: e)) = .ok ⟨ds⟩ := by
  generalize hbytes : a ++ (45 :: b) ++ (45 :: c) ++ (45 :: d) ++ (45 :: e) = bs
  have hgroups : (bs.drop 0).take 8 = a ∧ (bs.drop 9).take 4 = b ∧ (bs.drop 14).take 4 = c ∧
      (bs.drop 19).take 4 = d ∧ (bs.drop 24).take 12 = e := by
    have hdrop {x : List UInt8} {k : Nat} (h : x.length ≤ k) : x.drop k = [] :=
      List.drop_eq_nil_of_le h
    subst hbytes
    simp [List.drop_append, ha, hb, hc, hd, he, hdrop, List.take_of_length_le]
  have hdashes : bs[8]? = some 45 ∧ bs[13]? = some 45 ∧ bs[18]? = some 45 ∧ bs[23]? = some 45 := by
    subst hbytes
    simp [List.getElem?_append, ha, hb, hc, hd]
  obtain ⟨h0, h9, h14, h19, h24⟩ := hgroups
  obtain ⟨h8, h13, h18, h23⟩ := hdashes
  simp only [grouped, h0, h9, h14, h19, h24, h8, h13, h18, h23, hdigits]
  rfl

/-- The groups of the digits are all of them. -/
theorem groups_append {ds : List Nat} (h : ds.length = 32) :
    (ds.drop 0).take 8 ++ (ds.drop 8).take 4 ++ (ds.drop 12).take 4 ++ (ds.drop 16).take 4 ++
      (ds.drop 20).take 12 = ds := by
  have hlast : (ds.drop 20).take 12 = ds.drop 20 := List.take_of_length_le (by simp [h])
  have hstep (i k : Nat) : (ds.drop i).take k ++ ds.drop (i + k) = ds.drop i := by
    rw [← List.drop_drop, List.take_append_drop]
  rw [hlast]
  simp only [List.append_assoc]
  rw [hstep 16 4, hstep 12 4, hstep 8 4, hstep 0 8, List.drop_zero]

/-- An identifier is read back from its written form. -/
theorem parse_text {u : Uuid} (h : u.IsValid) : parse u.text = .ok u := by
  obtain ⟨hlength, hdigits⟩ := h
  have hgroup (i k : Nat) : Utf8.encode (((u.digits.drop i).take k).map Decimal.hexChar) =
      ((u.digits.drop i).take k).map hexByte :=
    encode_map_hexChar fun d hd => hdigits d (List.mem_of_mem_drop (List.mem_of_mem_take hd))
  have hdash : Utf8.encodeChar '-' = [45] := by decide
  have hbytes : Utf8.encode u.text.toList =
      ((u.digits.drop 0).take 8).map hexByte ++ (45 :: ((u.digits.drop 8).take 4).map hexByte) ++
        (45 :: ((u.digits.drop 12).take 4).map hexByte) ++
        (45 :: ((u.digits.drop 16).take 4).map hexByte) ++
        (45 :: ((u.digits.drop 20).take 12).map hexByte) := by
    simp only [text, String.toList_ofList, Utf8.encode_append, Utf8.encode_cons, hgroup, hdash,
      List.singleton_append]
  have hlengths : (Utf8.encode u.text.toList).length = 36 := by
    simp [hbytes, hlength]
  rw [parse]
  simp only [hlengths, if_true]
  rw [hbytes]
  refine grouped_groups (by simp [hlength]) (by simp [hlength]) (by simp [hlength])
    (by simp [hlength]) (by simp [hlength]) ?_
  rw [← List.map_append, ← List.map_append, ← List.map_append, ← List.map_append,
    groups_append hlength, hexDigits?_map_hexByte hdigits]

/-- The digits of a number with a fixed width. -/
theorem hexDigits_hex (width n : Nat) :
    ((Decimal.hex width n).filterMap Decimal.hexDigit?).length = width ∧
      ∀ d ∈ (Decimal.hex width n).filterMap Decimal.hexDigit?, d < 16 := by
  induction width generalizing n with
  | zero => simp [Decimal.hex]
  | succ width ih =>
    have hlast : Decimal.hexDigit? (Decimal.hexChar (n % 16)) = some (n % 16) :=
      hexDigit?_hexChar _ (Nat.mod_lt _ (by decide))
    obtain ⟨hlength, hdigits⟩ := ih (n / 16)
    rw [Decimal.hex, List.filterMap_append, List.filterMap_cons_some hlast, List.filterMap_nil]
    refine ⟨by simp [hlength], fun d hd => ?_⟩
    rcases List.mem_append.mp hd with hd | hd
    · exact hdigits d hd
    · rw [List.mem_singleton.mp hd]
      exact Nat.mod_lt _ (by decide)

/-- The identifier with a number is a valid one. -/
theorem isValid_ofNat (n : Nat) : (ofNat n).IsValid := by
  simp only [IsValid, ofNat]
  exact hexDigits_hex 32 n

end Contour.Uuid
