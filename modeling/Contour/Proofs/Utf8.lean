import Contour.Text.Utf8
import Mathlib.Data.List.Basic
import Mathlib.Order.Defs.LinearOrder

/-!
# Texts as bytes

Every text is read back from its bytes (`decode_encode`). They are well-formed (`isValid_encode`),
and the same as those of a string (`encode_toByteArray`). Texts are in the order of their bytes
(`encode_lt_encode`): the first bytes in which two characters differ are in the order of the
characters.
-/

namespace Contour.Utf8

/-! ## Bytes of one character -/

theorem toNat_ofNat {n : Nat} (h : n < 256) : (UInt8.ofNat n).toNat = n :=
  UInt8.toNat_ofNat_of_lt' h

/-- Surrogates are no characters. -/
theorem toNat_lt_or_lt (c : Char) : c.toNat < 0xd800 ∨ 0xdfff < c.toNat ∧ c.toNat < 0x110000 :=
  c.valid

theorem encodeChar_ne_nil (c : Char) : encodeChar c ≠ [] := by
  rw [encodeChar]
  split_ifs <;> simp

/-- The low bits of a number between bounds are read back. -/
theorem continuation?_ofNat {lo hi : UInt8} {k : Nat} (hlo : lo.toNat ≤ 0x80 + k % 64)
    (hhi : 0x80 + k % 64 ≤ hi.toNat) :
    continuation? lo hi (UInt8.ofNat (0x80 + k % 64)) = some (k % 64) := by
  have hbyte : (UInt8.ofNat (0x80 + k % 64)).toNat = 0x80 + k % 64 := toNat_ofNat (by omega)
  have hle : lo ≤ UInt8.ofNat (0x80 + k % 64) := by rw [UInt8.le_iff_toNat_le, hbyte]; exact hlo
  have hge : UInt8.ofNat (0x80 + k % 64) ≤ hi := by rw [UInt8.le_iff_toNat_le, hbyte]; exact hhi
  rw [continuation?, hbyte]
  simp only [hle, hge, decide_true, Bool.and_self, if_true, Option.some.injEq]
  omega

/-- The second byte of a character of three bytes is within its bounds. -/
theorem secondBounds_three {n : Nat} (hlow : 0x800 ≤ n) (hhigh : n < 0x10000)
    (hvalid : n < 0xd800 ∨ 0xdfff < n) :
    (secondBounds (UInt8.ofNat (0xe0 + n / 4096))).1.toNat ≤ 0x80 + n / 64 % 64 ∧
      0x80 + n / 64 % 64 ≤ (secondBounds (UInt8.ofNat (0xe0 + n / 4096))).2.toNat := by
  have hbyte : (UInt8.ofNat (0xe0 + n / 4096)).toNat = 0xe0 + n / 4096 := toNat_ofNat (by omega)
  simp only [secondBounds, beq_iff_eq, ← UInt8.toNat_inj, hbyte]
  split_ifs with h1 h2 h3 h4 <;> simp at * <;> omega

/-- The second byte of a character of four bytes is within its bounds. -/
theorem secondBounds_four {n : Nat} (hlow : 0x10000 ≤ n) (hhigh : n < 0x110000) :
    (secondBounds (UInt8.ofNat (0xf0 + n / 262144))).1.toNat ≤ 0x80 + n / 4096 % 64 ∧
      0x80 + n / 4096 % 64 ≤ (secondBounds (UInt8.ofNat (0xf0 + n / 262144))).2.toNat := by
  have hbyte : (UInt8.ofNat (0xf0 + n / 262144)).toNat = 0xf0 + n / 262144 :=
    toNat_ofNat (by omega)
  simp only [secondBounds, beq_iff_eq, ← UInt8.toNat_inj, hbyte]
  split_ifs with h1 h2 h3 h4 <;> simp at * <;> omega

/-- A character is read back, whatever follows it. -/
theorem char?_encodeChar_append (c : Char) (rest : List UInt8) :
    char? (encodeChar c ++ rest) = some (c, rest) := by
  have hvalid := toNat_lt_or_lt c
  have htail (k : Nat) : continuation? 0x80 0xbf (UInt8.ofNat (0x80 + k % 64)) = some (k % 64) :=
    continuation?_ofNat (by simp) (by simp; omega)
  have hread {k : Nat} (hk : k = c.toNat) : Char.ofNat k = c := by rw [hk, Char.ofNat_toNat]
  rw [encodeChar]
  split_ifs with h1 h2 h3
  · have hbyte : (UInt8.ofNat c.toNat).toNat = c.toNat := toNat_ofNat (by omega)
    simp only [List.cons_append, List.nil_append, char?, UInt8.lt_iff_toNat_lt, hbyte]
    rw [if_pos (by simpa using h1), hread rfl]
  · have hbyte : (UInt8.ofNat (0xc0 + c.toNat / 64)).toNat = 0xc0 + c.toNat / 64 :=
      toNat_ofNat (by omega)
    simp only [List.cons_append, List.nil_append, char?, UInt8.lt_iff_toNat_lt,
      UInt8.le_iff_toNat_le, hbyte, Nat.div_one, htail]
    rw [if_neg (by simp; omega), if_pos (by simp; omega)]
    simp only [Option.bind_eq_bind, Option.bind_some]
    rw [hread (by omega)]
  · have hbyte : (UInt8.ofNat (0xe0 + c.toNat / 4096)).toNat = 0xe0 + c.toNat / 4096 :=
      toNat_ofNat (by omega)
    obtain ⟨hlo, hhi⟩ := secondBounds_three (n := c.toNat) (by omega) h3 (by omega)
    simp only [List.cons_append, List.nil_append, char?, UInt8.lt_iff_toNat_lt,
      UInt8.le_iff_toNat_le, hbyte, Nat.div_one, htail, continuation?_ofNat hlo hhi]
    rw [if_neg (by simp; omega), if_neg (by simp; omega), if_pos (by simp; omega)]
    simp only [Option.bind_eq_bind, Option.bind_some]
    rw [hread (by omega)]
  · have hbyte : (UInt8.ofNat (0xf0 + c.toNat / 262144)).toNat = 0xf0 + c.toNat / 262144 :=
      toNat_ofNat (by omega)
    obtain ⟨hlo, hhi⟩ := secondBounds_four (n := c.toNat) (by omega) (by omega)
    simp only [List.cons_append, List.nil_append, char?, UInt8.lt_iff_toNat_lt,
      UInt8.le_iff_toNat_le, hbyte, Nat.div_one, htail, continuation?_ofNat hlo hhi]
    rw [if_neg (by simp; omega), if_neg (by simp; omega), if_neg (by simp; omega),
      if_pos (by simp; omega)]
    simp only [Option.bind_eq_bind, Option.bind_some]
    rw [hread (by omega)]

/-! ## Bytes of a text -/

theorem encode_cons (c : Char) (s : List Char) : encode (c :: s) = encodeChar c ++ encode s := by
  simp [encode]

theorem encode_append (s t : List Char) : encode (s ++ t) = encode s ++ encode t := by
  simp [encode]

theorem exists_encode_cons_eq (c : Char) (s : List Char) : ∃ b bs, encode (c :: s) = b :: bs := by
  rw [encode_cons]
  exact List.exists_cons_of_ne_nil (List.append_ne_nil_of_left_ne_nil (encodeChar_ne_nil c) _)

theorem length_le_length_encode (s : List Char) : s.length ≤ (encode s).length := by
  induction s with
  | nil => simp
  | cons c s ih =>
    have := List.length_pos_iff.mpr (encodeChar_ne_nil c)
    rw [encode_cons, List.length_append, List.length_cons]
    omega

theorem decodeFor_encode {fuel : Nat} {s : List Char} (h : s.length ≤ fuel) :
    decodeFor fuel (encode s) = s := by
  induction s generalizing fuel with
  | nil => cases fuel <;> rfl
  | cons c s ih =>
    cases fuel with
    | zero => simp at h
    | succ fuel =>
      obtain ⟨b, bs, hbytes⟩ := exists_encode_cons_eq c s
      rw [hbytes, decodeFor, ← hbytes, encode_cons, char?_encodeChar_append]
      simp only [List.cons.injEq, true_and]
      exact ih (by simpa using h)

/-- A text is read back from its bytes. -/
theorem decode_encode (s : List Char) : decode (encode s) = s :=
  decodeFor_encode (length_le_length_encode s)

/-- The bytes of a text are well-formed. -/
theorem isValidFor_encode {fuel : Nat} {s : List Char} (h : s.length ≤ fuel) :
    isValidFor fuel (encode s) = true := by
  induction s generalizing fuel with
  | nil => cases fuel <;> rfl
  | cons c s ih =>
    cases fuel with
    | zero => simp at h
    | succ fuel =>
      obtain ⟨b, bs, hbytes⟩ := exists_encode_cons_eq c s
      rw [hbytes, isValidFor, ← hbytes, encode_cons, char?_encodeChar_append]
      · exact ih (by simpa using h)
      · simp

theorem isValid_encode (s : List Char) : isValid (encode s) = true :=
  isValidFor_encode (length_le_length_encode s)

/-! ## The encoding of strings -/

/-- The bytes of a character are those that it has in a string. -/
theorem encodeChar_eq_utf8EncodeChar (c : Char) : encodeChar c = String.utf8EncodeChar c := by
  have hvalid := toNat_lt_or_lt c
  have hval : c.val.toNat = c.toNat := rfl
  simp only [encodeChar, String.utf8EncodeChar, hval]
  generalize c.toNat = n at hvalid ⊢
  split_ifs
  all_goals try omega
  all_goals simp only [List.cons.injEq, and_true]
  · exact ⟨congrArg _ (by omega), congrArg _ (by omega)⟩
  · exact ⟨congrArg _ (by omega), congrArg _ (by omega), congrArg _ (by omega)⟩
  · exact ⟨congrArg _ (by omega), congrArg _ (by omega), congrArg _ (by omega),
      congrArg _ (by omega)⟩

theorem encode_toByteArray (s : List Char) : (encode s).toByteArray = s.utf8Encode := by
  rw [List.utf8Encode, encode]
  congr 1
  exact List.flatMap_congr fun c _ => encodeChar_eq_utf8EncodeChar c

/-! ## Order -/

/-- Bytes that differ are in the order of the first ones that do. -/
def Precedes (a b : List UInt8) : Prop :=
  ∃ start x y a' b', a = start ++ x :: a' ∧ b = start ++ y :: b' ∧ x < y

theorem Precedes.append {a b : List UInt8} (h : Precedes a b) (c d : List UInt8) :
    Precedes (a ++ c) (b ++ d) := by
  obtain ⟨start, x, y, a', b', rfl, rfl, hlt⟩ := h
  exact ⟨start, x, y, a' ++ c, b' ++ d, by simp, by simp, hlt⟩

theorem Precedes.lt {a b : List UInt8} (h : Precedes a b) : a < b := by
  obtain ⟨start, x, y, a', b', rfl, rfl, hlt⟩ := h
  exact List.append_left_lt (List.Lex.rel hlt)

theorem Precedes.cons {a b : List UInt8} (h : Precedes a b) (x : UInt8) :
    Precedes (x :: a) (x :: b) := by
  obtain ⟨start, y, z, a', b', rfl, rfl, hlt⟩ := h
  exact ⟨x :: start, y, z, a', b', rfl, rfl, hlt⟩

theorem Precedes.of_lt {i j : Nat} (h : i < j) (hj : j < 256) (a b : List UInt8) :
    Precedes (UInt8.ofNat i :: a) (UInt8.ofNat j :: b) := by
  refine ⟨[], _, _, a, b, rfl, rfl, ?_⟩
  rw [UInt8.lt_iff_toNat_lt, toNat_ofNat (by omega), toNat_ofNat hj]
  exact h

/-- The first byte decides, or else the bytes after it. -/
theorem Precedes.of_le {i j : Nat} (h : i ≤ j) (hj : j < 256) {a b : List UInt8}
    (hrest : i = j → Precedes a b) : Precedes (UInt8.ofNat i :: a) (UInt8.ofNat j :: b) := by
  rcases Nat.lt_or_eq_of_le h with hlt | rfl
  · exact .of_lt hlt hj a b
  · exact (hrest rfl).cons _

/-- The bytes of characters are in the order of the characters. -/
theorem precedes_encodeChar {c d : Char} (h : c < d) : Precedes (encodeChar c) (encodeChar d) := by
  have hlt : c.toNat < d.toNat := h
  have hvalid := toNat_lt_or_lt d
  rw [encodeChar, encodeChar]
  generalize c.toNat = n at hlt
  generalize d.toNat = m at hlt hvalid
  simp only [Nat.div_one]
  split_ifs with hn1 hm1 hm2 hm3 hn2 _ _ _ hn3
  all_goals try omega
  -- characters of different lengths differ in their first bytes
  all_goals try exact .of_lt (by omega) (by omega) _ _
  · refine .of_le (by omega) (by omega) fun h1 => ?_
    exact .of_lt (by omega) (by omega) _ _
  · refine .of_le (by omega) (by omega) fun h1 => ?_
    refine .of_le (by omega) (by omega) fun h2 => ?_
    exact .of_lt (by omega) (by omega) _ _
  · refine .of_le (by omega) (by omega) fun h1 => ?_
    refine .of_le (by omega) (by omega) fun h2 => ?_
    refine .of_le (by omega) (by omega) fun h3 => ?_
    exact .of_lt (by omega) (by omega) _ _

/-- The bytes of texts are in the order of the texts. -/
theorem encode_lt_encode {s t : List Char} (h : s < t) : encode s < encode t := by
  induction h with
  | nil =>
    rename_i c t
    obtain ⟨b, bs, hbytes⟩ := exists_encode_cons_eq c t
    rw [hbytes]
    exact List.Lex.nil
  | cons _ ih =>
    rw [encode_cons, encode_cons]
    exact List.append_left_lt ih
  | rel hlt =>
    rw [encode_cons, encode_cons]
    exact ((precedes_encodeChar hlt).append _ _).lt

end Contour.Utf8
