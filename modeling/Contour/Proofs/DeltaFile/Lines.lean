import Contour.Proofs.DeltaFile.Pairs
import Contour.Proofs.Text.Lines
import Contour.Text.Utf8
import Mathlib.Data.List.ReduceOption

/-!
# Text files line by line

A line gives the delta that its first pair of numbers writes, or nothing if there is no pair on it
(`Yields`), unless a number of that pair fits no word (`Exceeds`). Which of these it is depends on
the line alone (`yields_or_exceeds`). Reading goes through the lines in their order
(`readFrom_append`) and stops at the first with a number that fits no word, so that a file is read
exactly if there is none (`read_by_lines`).
-/

namespace Contour.DeltaFile.Text

open Assembly (Writes)
open Contour.Text (pieces dropFinalLineFeed)

/-! ## Words -/

/-- A number whose value fits no word. -/
def IsOutside (s : List Char) : Prop := ∃ n, Writes s (some n) ∧ (n < -2 ^ 63 ∨ 2 ^ 63 ≤ n)

theorem word?_eq_some_iff {s : List Char} {w : Int64} :
    word? s = some w ↔ Writes s (some w.toInt) := by
  rw [word?, Option.bind_eq_some_iff, ← Assembly.int?_eq_some_iff]
  constructor
  · rintro ⟨n, hn, hw⟩
    rw [Word.ofInt?, Option.ite_none_right_eq_some, Option.some.injEq] at hw
    obtain ⟨hrange, rfl⟩ := hw
    rwa [Int64.toInt_ofInt_of_le (by omega) (by omega)]
  · intro h
    exact ⟨w.toInt, h, Word.ofInt?_toInt w⟩

theorem word?_eq_none_iff {s : List Char} (h : IsNumber s) : word? s = none ↔ IsOutside s := by
  obtain ⟨n, hn⟩ := h.exists_writes
  have hvalue {m : Int} (hm : Writes s (some m)) : m = n := Option.some.inj (hm.unique hn)
  rw [word?, Assembly.int?_eq_some_iff.mpr hn, Option.bind_some, Word.ofInt?, ite_eq_right_iff]
  simp only [reduceCtorEq, imp_false]
  constructor
  · intro hout
    exact ⟨n, hn, by omega⟩
  · rintro ⟨m, hm, hout⟩
    rw [hvalue hm] at hout
    omega

/-! ## Lines -/

/-- What a line gives: nothing if there is no pair on it, and else the delta that the first pair
writes. -/
inductive Yields : List Char → Option Delta → Prop where
  | nothing {line : List Char}
      (h : ∀ before a between b after, ¬ IsPair line before a between b after) : Yields line none
  | delta {line before a between b after : List Char} {d : Delta}
      (h : IsFirstPair line before a between b after) (hindex : Writes a (some d.index.toInt))
      (hweight : Writes b (some d.weight.toInt)) : Yields line (some d)

/-- `Exceeds line s` says that a number of the first pair fits no word, and `s` is the first such
number. -/
inductive Exceeds : List Char → List Char → Prop where
  | index {line before a between b after : List Char}
      (h : IsFirstPair line before a between b after) (ha : IsOutside a) : Exceeds line a
  | weight {line before a between b after : List Char}
      (h : IsFirstPair line before a between b after) (ha : ¬ IsOutside a) (hb : IsOutside b) :
      Exceeds line b

variable {n : Nat} {line : List Char} {rest : List (List Char)}

theorem yields_none_iff : Yields line none ↔ pair? line = none := by
  rw [pair?_eq_none_iff]
  constructor
  · rintro ⟨h⟩
    exact h
  · exact .nothing

theorem yields_some_iff {d : Delta} :
    Yields line (some d) ↔
      ∃ a b, pair? line = some (a, b) ∧ word? a = some d.index ∧ word? b = some d.weight := by
  simp only [pair?_eq_some_iff, word?_eq_some_iff]
  constructor
  · rintro (_ | ⟨h, hindex, hweight⟩)
    exact ⟨_, _, ⟨_, _, _, h⟩, hindex, hweight⟩
  · rintro ⟨a, b, ⟨before, between, after, h⟩, hindex, hweight⟩
    exact .delta h hindex hweight

theorem exceeds_iff {s : List Char} :
    Exceeds line s ↔ ∃ a b, pair? line = some (a, b) ∧
      (word? a = none ∧ s = a ∨ word? a ≠ none ∧ word? b = none ∧ s = b) := by
  simp only [pair?_eq_some_iff]
  constructor
  · rintro (⟨h, ha⟩ | ⟨h, ha, hb⟩)
    · exact ⟨_, _, ⟨_, _, _, h⟩, .inl ⟨(word?_eq_none_iff h.first).mpr ha, rfl⟩⟩
    · exact ⟨_, _, ⟨_, _, _, h⟩, .inr ⟨mt (word?_eq_none_iff h.first).mp ha,
        (word?_eq_none_iff h.second).mpr hb, rfl⟩⟩
  · rintro ⟨a, b, ⟨before, between, after, h⟩, ⟨ha, rfl⟩ | ⟨ha, hb, rfl⟩⟩
    · exact .index h ((word?_eq_none_iff h.first).mp ha)
    · exact .weight h (mt (word?_eq_none_iff h.first).mpr ha) ((word?_eq_none_iff h.second).mp hb)

theorem yields_or_exceeds (line : List Char) :
    (∃ d, Yields line d) ∨ ∃ s, Exceeds line s := by
  simp only [exceeds_iff]
  cases hpair : pair? line with
  | none => exact .inl ⟨none, yields_none_iff.mpr hpair⟩
  | some pair =>
    obtain ⟨a, b⟩ := pair
    cases ha : word? a with
    | none => exact .inr ⟨a, a, b, rfl, .inl ⟨ha, rfl⟩⟩
    | some index =>
      cases hb : word? b with
      | none => exact .inr ⟨b, a, b, rfl, .inr ⟨by simp [ha], hb, rfl⟩⟩
      | some weight => exact .inl ⟨some ⟨index, weight⟩, yields_some_iff.mpr ⟨a, b, hpair, ha, hb⟩⟩

/-- A carriage return at the end of a line makes no difference. -/
theorem yields_append_return_iff {d : Option Delta} :
    Yields (line ++ ['\r']) d ↔ Yields line d := by
  have hpair := pair?_append_of_not_isDigit (c := '\r') (by decide) line
  cases d with
  | none => rw [yields_none_iff, yields_none_iff, hpair]
  | some d => rw [yields_some_iff, yields_some_iff, hpair]

theorem exceeds_append_return_iff {s : List Char} :
    Exceeds (line ++ ['\r']) s ↔ Exceeds line s := by
  rw [exceeds_iff, exceeds_iff, pair?_append_of_not_isDigit (by decide)]

theorem readFrom_of_yields {d : Option Delta} (h : Yields line d) (hshort : line.length < maxLine) :
    readFrom n (line :: rest) = (readFrom (n + 1) rest).map (d.toList ++ ·) := by
  cases d with
  | none =>
    rw [readFrom, if_neg (Nat.not_le.mpr hshort), yields_none_iff.mp h]
    cases readFrom (n + 1) rest <;> rfl
  | some d =>
    obtain ⟨a, b, hpair, hindex, hweight⟩ := yields_some_iff.mp h
    rw [readFrom, if_neg (Nat.not_le.mpr hshort), hpair]
    simp only [hindex, hweight]
    rfl

theorem readFrom_of_exceeds {s : List Char} (h : Exceeds line s) (hshort : line.length < maxLine) :
    readFrom n (line :: rest) = .error (.range n s) := by
  obtain ⟨a, b, hpair, ⟨ha, rfl⟩ | ⟨ha, hb, rfl⟩⟩ := exceeds_iff.mp h
  · rw [readFrom, if_neg (Nat.not_le.mpr hshort), hpair]
    simp only [ha]
  · obtain ⟨index, hindex⟩ := Option.ne_none_iff_exists'.mp ha
    rw [readFrom, if_neg (Nat.not_le.mpr hshort), hpair]
    simp only [hindex, hb]

/-! ## Files -/

/-- A list of lines each of which gives something, or one with a first line that does not. -/
theorem exists_yields_or_exceeds (ls : List (List Char)) :
    (∃ ys, List.Forall₂ Yields ls ys) ∨
      ∃ front line back ys s, ls = front ++ line :: back ∧ List.Forall₂ Yields front ys ∧
        Exceeds line s := by
  induction ls with
  | nil => exact .inl ⟨[], .nil⟩
  | cons line ls ih =>
    rcases yields_or_exceeds line with ⟨d, hd⟩ | ⟨s, hs⟩
    · rcases ih with ⟨ys, hys⟩ | ⟨front, line', back, ys, s, rfl, hys, hs⟩
      · exact .inl ⟨d :: ys, .cons hd hys⟩
      · exact .inr ⟨line :: front, line', back, d :: ys, s, rfl, .cons hd hys, hs⟩
    · exact .inr ⟨[], line, ls, [], s, rfl, .nil, hs⟩

/-- Lines that give something are read one by one, and the reading goes on behind them. -/
theorem readFrom_append {front : List (List Char)} {ys : List (Option Delta)}
    (h : List.Forall₂ Yields front ys) (hshort : ∀ l ∈ front, l.length < maxLine) :
    readFrom n (front ++ rest) =
      (readFrom (n + front.length) rest).map (ys.reduceOption ++ ·) := by
  induction h generalizing n with
  | nil =>
    rw [List.nil_append, List.length_nil, Nat.add_zero, List.reduceOption_nil]
    cases readFrom n rest <;> rfl
  | @cons line d front ys hd hys ih =>
    rw [List.forall_mem_cons] at hshort
    have hreduce : (d :: ys).reduceOption = d.toList ++ ys.reduceOption := by
      cases d <;> simp
    rw [List.cons_append, readFrom_of_yields hd hshort.1, ih hshort.2, hreduce, List.length_cons,
      show n + 1 + front.length = n + (front.length + 1) by omega]
    cases readFrom (n + (front.length + 1)) rest with
    | error e => rfl
    | ok ds => exact congrArg Except.ok (List.append_assoc ..).symm

/-- An empty line at the end makes no difference. -/
theorem readFrom_concat_nil (n : Nat) (ls : List (List Char)) :
    readFrom n (ls ++ [[]]) = readFrom n ls := by
  induction ls generalizing n with
  | nil => rfl
  | cons line ls ih => simp only [List.cons_append, readFrom, ih]

/-- The lines of a file, in bytes that are taken for characters. -/
def linesOf (bytes : List UInt8) : List (List Char) :=
  pieces '\n' (bytes.map fun b => Char.ofNat b.toNat)

theorem read_eq_readFrom (bytes : List UInt8) : read bytes = readFrom 1 (linesOf bytes) := by
  rw [read, linesOf]
  generalize bytes.map (fun b => Char.ofNat b.toNat) = text
  rw [dropFinalLineFeed]
  split
  · rename_i hend
    obtain ⟨front, rfl⟩ := List.getLast?_eq_some_iff.mp hend
    have hempty : pieces '\n' [] = [[]] := rfl
    rw [List.dropLast_concat, Text.pieces_append_separator, hempty, readFrom_concat_nil]
  · rfl

theorem read_of_yields {bytes : List UInt8} {ys : List (Option Delta)}
    (h : List.Forall₂ Yields (linesOf bytes) ys)
    (hshort : ∀ l ∈ linesOf bytes, l.length < maxLine) : read bytes = .ok ys.reduceOption := by
  have hread : readFrom 1 (linesOf bytes ++ []) = _ := readFrom_append h hshort
  rw [List.append_nil] at hread
  rw [read_eq_readFrom, hread]
  exact congrArg Except.ok (List.append_nil _)

theorem read_of_exceeds {bytes : List UInt8} {front back : List (List Char)} {line s : List Char}
    {ys : List (Option Delta)} (hlines : linesOf bytes = front ++ line :: back)
    (h : List.Forall₂ Yields front ys) (hs : Exceeds line s)
    (hshort : ∀ l ∈ linesOf bytes, l.length < maxLine) :
    read bytes = .error (.range (front.length + 1) s) := by
  rw [hlines] at hshort
  rw [read_eq_readFrom, hlines, readFrom_append h fun l hl => hshort l (by simp [hl]),
    readFrom_of_exceeds hs (hshort line (by simp)), Nat.add_comm]
  rfl

/-- A file without long lines is read line by line: it has the deltas that its lines give, in their
order. If a number of a first pair fits no word there are no deltas, but the error with the number
of the first such line, counted from one. A carriage return at the end of a line counts for its
length, and for nothing else. -/
theorem read_by_lines (bytes : List UInt8) (hshort : ∀ l ∈ linesOf bytes, l.length < 65536) :
    (∀ ds, read bytes = .ok ds ↔
      ∃ ys, List.Forall₂ Yields (linesOf bytes) ys ∧ ds = ys.reduceOption) ∧
    (∀ e, read bytes = .error e ↔ ∃ front line back ys s, linesOf bytes = front ++ line :: back ∧
      List.Forall₂ Yields front ys ∧ Exceeds line s ∧ e = .range (front.length + 1) s) ∧
    ∀ line, (∀ d, Yields (line ++ ['\r']) d ↔ Yields line d) ∧
      ∀ s, Exceeds (line ++ ['\r']) s ↔ Exceeds line s := by
  refine ⟨fun ds => ⟨fun h => ?_, ?_⟩, fun e => ⟨fun h => ?_, ?_⟩,
    fun line => ⟨fun d => yields_append_return_iff, fun s => exceeds_append_return_iff⟩⟩
  · rcases exists_yields_or_exceeds (linesOf bytes) with
      ⟨ys, hys⟩ | ⟨front, line, back, ys, s, hlines, hys, hs⟩
    · rw [read_of_yields hys hshort] at h
      exact ⟨ys, hys, (Except.ok.inj h).symm⟩
    · rw [read_of_exceeds hlines hys hs hshort] at h
      cases h
  · rintro ⟨ys, hys, rfl⟩
    exact read_of_yields hys hshort
  · rcases exists_yields_or_exceeds (linesOf bytes) with
      ⟨ys, hys⟩ | ⟨front, line, back, ys, s, hlines, hys, hs⟩
    · rw [read_of_yields hys hshort] at h
      cases h
    · rw [read_of_exceeds hlines hys hs hshort] at h
      exact ⟨front, line, back, ys, s, hlines, hys, hs, (Except.error.inj h).symm⟩
  · rintro ⟨front, line, back, ys, s, hlines, hys, hs, rfl⟩
    exact read_of_exceeds hlines hys hs hshort

/-- A header, a dash after a digit, two dashes in a row, and another sign among the separators; and
a line with a number that fits no word. -/
theorem read_by_lines_dashes :
    let good := Utf8.encode "di\tdw\n1-2 3\r\n1 --2\n-4,+05 6".toList
    let bad := Utf8.encode "1 2\n3 9223372036854775808 4\n".toList
    ((∀ l ∈ linesOf good, l.length < 65536) ∧
      ∃ ys, List.Forall₂ Yields (linesOf good) ys ∧ [⟨-2, 3⟩, ⟨-4, 5⟩] = ys.reduceOption) ∧
    (∀ l ∈ linesOf bad, l.length < 65536) ∧
      ∃ front line back ys s, linesOf bad = front ++ line :: back ∧
        List.Forall₂ Yields front ys ∧ Exceeds line s ∧
        Error.range 2 "9223372036854775808".toList = .range (front.length + 1) s := by
  have hgood : ∀ l ∈ linesOf (Utf8.encode "di\tdw\n1-2 3\r\n1 --2\n-4,+05 6".toList),
      l.length < 65536 := by decide +kernel
  have hbad : ∀ l ∈ linesOf (Utf8.encode "1 2\n3 9223372036854775808 4\n".toList),
      l.length < 65536 := by decide +kernel
  obtain ⟨hok, -⟩ := read_by_lines _ hgood
  obtain ⟨-, herror, -⟩ := read_by_lines _ hbad
  exact ⟨⟨hgood, (hok _).mp (by decide +kernel)⟩, hbad, (herror _).mp (by decide +kernel)⟩

end Contour.DeltaFile.Text
