import Contour.Proofs.DeltaFile.Pairs
import Contour.Proofs.Text.Lines
import Contour.Text.Utf8

/-!
# Programs in text files

A program that was written as text is read back. The text is cut into the header and a line for each
delta (`lines_write`). The header holds no number, and on a line the first pair of numbers is the
one that was written (`pair?_body`): a dash belongs to the number that it stands before, the tab
belongs to neither, and the numbers fit words again.
-/

namespace Contour.DeltaFile.Text

open Contour.Text (pieces dropFinalLineFeed pieces_flatMap)

/-- The first line without its end. -/
def title : List Char := ['d', 'i', '\t', 'd', 'w']

/-- The line of a delta without its end. -/
def body (d : Delta) : List Char := Decimal.int d.index.toInt ++ '\t' :: Decimal.int d.weight.toInt

/-! ## Numbers on a line -/

theorem isNumber_int (n : Int) : IsNumber (Decimal.int n) := by
  have hdigits : Assembly.IsDigits (Decimal.nat n.natAbs) :=
    ⟨by simp [Decimal.nat, Decimal.digits_ne_nil], fun _ hc => Decimal.isDigit_of_mem_nat hc⟩
  rw [Decimal.int]
  split
  · exact .negative hdigits
  · exact .plain hdigits

/-- The line of a delta is the pair of its numbers, with a tab between them. -/
theorem isFirstPair_body (d : Delta) :
    IsFirstPair (body d) [] (Decimal.int d.index.toInt) ['\t'] (Decimal.int d.weight.toInt) [] where
  parts := by simp [body]
  first := isNumber_int d.index.toInt
  second := isNumber_int d.weight.toInt
  starts := by simp
  ends := by simp
  apart := by simp
  separators := by simp
  shortest _ _ _ _ _ _ := Nat.zero_le _

/-- The first pair of numbers on the line of a delta is the delta. -/
theorem pair?_body (d : Delta) :
    pair? (body d) = some (Decimal.int d.index.toInt, Decimal.int d.weight.toInt) :=
  pair?_eq_some_iff.mpr ⟨_, _, _, isFirstPair_body d⟩

theorem word?_int (w : Int64) : word? (Decimal.int w.toInt) = some w := by
  rw [word?, Decimal.int?_int, Option.bind_some, Word.ofInt?_toInt]

/-! ## Lengths -/

theorem length_digits_le {n k : Nat} (hk : 0 < k) (h : n < 10 ^ k) :
    (Decimal.digits n).length ≤ k := by
  by_cases hn : n = 0
  · rw [hn, Decimal.digits_zero]
    exact hk
  · rw [Decimal.digits_eq hn, List.length_reverse]
    exact (Nat.digits_length_le_iff (by decide) n).mpr h

theorem length_int_le (w : Int64) : (Decimal.int w.toInt).length ≤ 20 := by
  have hlow := w.le_toInt
  have hhigh := w.toInt_lt
  have hnat : (Decimal.nat w.toInt.natAbs).length ≤ 19 := by
    rw [Decimal.nat, List.length_map]
    exact length_digits_le (by decide) (by omega)
  rw [Decimal.int]
  split
  · rw [List.length_cons]
    omega
  · omega

theorem length_body_lt (d : Delta) : (body d).length < maxLine := by
  have hindex := length_int_le d.index
  have hweight := length_int_le d.weight
  simp only [body, List.length_append, List.length_cons, maxLine]
  omega

/-! ## Lines -/

theorem write_eq (ds : List Delta) : write ds = (title :: ds.map body).flatMap (· ++ ['\n']) := by
  rw [write, List.flatMap_cons, List.flatMap_map]
  refine congrArg (header ++ ·) (List.flatMap_congr fun d _ => ?_)
  simp [line, body]

/-- The characters of a line: digits, dashes and one tab. -/
theorem toNat_of_mem_body {d : Delta} {c : Char} (h : c ∈ body d) :
    c.toNat = 9 ∨ c.toNat = 45 ∨ (48 ≤ c.toNat ∧ c.toNat ≤ 57) := by
  rw [body, List.mem_append, List.mem_cons] at h
  rcases h with h | rfl | h
  · exact .inr (Assembly.toNat_of_mem_int h)
  · exact .inl rfl
  · exact .inr (Assembly.toNat_of_mem_int h)

/-- The lines of a written program. -/
theorem lines_write (ds : List Delta) :
    pieces '\n' (dropFinalLineFeed (write ds)) = title :: ds.map body := by
  rw [write_eq]
  refine pieces_flatMap (List.cons_ne_nil _ _) fun l hl => ?_
  rcases List.mem_cons.mp hl with rfl | hl
  · decide
  · obtain ⟨d, -, rfl⟩ := List.mem_map.mp hl
    intro hmem
    have h10 : ('\n').toNat = 10 := rfl
    have := toNat_of_mem_body hmem
    omega

/-! ## Bytes -/

/-- Characters below 128 are their bytes. -/
theorem map_encode_of_lt {s : List Char} (h : ∀ c ∈ s, c.toNat < 128) :
    (Utf8.encode s).map (fun b => Char.ofNat b.toNat) = s := by
  induction s with
  | nil => rfl
  | cons c s ih =>
    have hc := h c List.mem_cons_self
    have hbyte : Utf8.encodeChar c = [UInt8.ofNat c.toNat] := by
      simp only [Utf8.encodeChar]
      exact if_pos hc
    have hback : (UInt8.ofNat c.toNat).toNat = c.toNat := by
      rw [UInt8.toNat_ofNat']
      omega
    have hrest := ih fun d hd => h d (List.mem_cons_of_mem _ hd)
    rw [Utf8.encode] at hrest ⊢
    rw [List.flatMap_cons, hbyte, List.map_append, hrest, List.map_singleton, hback,
      Char.ofNat_toNat, List.singleton_append]

theorem toNat_lt_of_mem_write {ds : List Delta} {c : Char} (h : c ∈ write ds) : c.toNat < 128 := by
  rw [write_eq, List.mem_flatMap] at h
  obtain ⟨l, hl, hc⟩ := h
  have htitle : title.all (fun c => c.toNat < 128) = true := by decide
  have hend : ('\n').toNat < 128 := by decide
  rcases List.mem_append.mp hc with hc | hc
  · rcases List.mem_cons.mp hl with rfl | hl
    · exact of_decide_eq_true (List.all_eq_true.mp htitle c hc)
    · obtain ⟨d, -, rfl⟩ := List.mem_map.mp hl
      have := toNat_of_mem_body hc
      omega
  · rwa [List.mem_singleton.mp hc]

/-! ## Reading -/

theorem readFrom_map_body (n : Nat) (ds : List Delta) : readFrom n (ds.map body) = .ok ds := by
  induction ds generalizing n with
  | nil => rfl
  | cons d ds ih =>
    rw [List.map_cons, readFrom, if_neg (Nat.not_le.mpr (length_body_lt d)), pair?_body]
    simp only [word?_int, ih]
    rfl

theorem pair?_title : pair? title = none := by decide

theorem length_title_lt : title.length < maxLine := by decide

/-- The bytes of a text file are read as the program that was written. -/
theorem read_encode_write (ds : List Delta) : read (Utf8.encode (write ds)) = .ok ds := by
  rw [read, map_encode_of_lt fun c => toNat_lt_of_mem_write, lines_write, readFrom,
    if_neg (Nat.not_le.mpr length_title_lt), pair?_title]
  exact readFrom_map_body 2 ds

/-- A program that was written as text is read back. The first line holds no pair of numbers; every
other line is matched as the two numbers of its delta, which fit words, and no line is too long. -/
theorem read_write (ds : List Delta) :
    writeWithin none ds = .ok (write ds) ∧ read (Utf8.encode (write ds)) = .ok ds ∧
      pieces '\n' (dropFinalLineFeed (write ds)) = title :: ds.map body ∧
      (pair? title = none ∧ title.length < maxLine) ∧
      ∀ d : Delta, (body d).length < maxLine ∧
        pair? (body d) = some (Decimal.int d.index.toInt, Decimal.int d.weight.toInt) ∧
        word? (Decimal.int d.index.toInt) = some d.index ∧
        word? (Decimal.int d.weight.toInt) = some d.weight := by
  refine ⟨rfl, read_encode_write ds, lines_write ds, ⟨pair?_title, length_title_lt⟩, fun d => ?_⟩
  exact ⟨length_body_lt d, pair?_body d, word?_int d.index, word?_int d.weight⟩

end Contour.DeltaFile.Text
