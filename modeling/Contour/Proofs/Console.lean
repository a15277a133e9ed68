import Contour.Console
import Contour.Proofs.Assembly.Grammar
import Contour.Proofs.Text.Words
import Contour.Proofs.Utf8

/-!
# Consoles, call by call

`answer c k` is what the console `c` answers to a request for a value that follows `k` others. A
console whose input does not fail answers with one value for each character of its input, or for
each word of it, and then with zeros (`answer_char`, `answer_number`): one request takes exactly one
character or one word off the input, also if the word is no number.

What was written is therefore read back. Numbers come back as they are, since each is a word of its
own (`numbers_answer_and_read_back`). Characters come back as they are if they are Unicode scalar
values, and other values come back as U+FFFD (`characters_read_back`).
-/

namespace Contour.Console

/-! ## Requests one after another -/

/-- The answer to a request for a value that follows `k` others, each made to the console that the
one before it left. -/
def answer (c : Console) : Nat → Except ChannelError Int
  | 0 => c.read.1
  | k + 1 => answer c.read.2 k

/-- Writes values one after another, up to the first that cannot be written. -/
def writeAll (c : Console) : List Int → Except ChannelError Unit × Console
  | [] => (.ok (), c)
  | v :: vs =>
    match c.write v with
    | (.ok (), c) => c.writeAll vs
    | (.error e, c) => (.error e, c)

/-- A console gives its answers in turn, and then zeros, if each request gives the first of them and
leaves the others. -/
theorem answer_of_step (answers : Console → List (Except ChannelError Int)) {p : Console → Prop}
    (hstep : ∀ c, p c → c.read.1 = (answers c).head?.getD (.ok 0) ∧ p c.read.2 ∧
      answers c.read.2 = (answers c).tail)
    {c : Console} (hc : p c) (k : Nat) : c.answer k = (answers c)[k]?.getD (.ok 0) := by
  induction k generalizing c with
  | zero => rw [answer, (hstep c hc).1, List.head?_eq_getElem?]
  | succ k ih =>
    obtain ⟨-, hnext, htail⟩ := hstep c hc
    rw [answer, ih hnext, htail, List.getElem?_tail]

/-- All values are written while there is room for any number of them. -/
theorem exists_writeAll {c : Console} (h : c.room = none) (vs : List Int) :
    ∃ c', c.writeAll vs = (.ok (), c') ∧
      c'.output.toList = c.output.toList ++ vs.flatMap fun v => (render c.format v).toList := by
  induction vs generalizing c with
  | nil => exact ⟨c, rfl, by simp⟩
  | cons v vs ih =>
    have hwrite : c.write v = (.ok (), { c with output := c.output ++ render c.format v }) := by
      simp only [write, h]
    obtain ⟨c', hall, houtput⟩ := @ih { c with output := c.output ++ render c.format v } h
    refine ⟨c', by rw [writeAll, hwrite]; exact hall, ?_⟩
    rw [houtput, String.toList_append, List.flatMap_cons, List.append_assoc]

/-! ## Characters -/

theorem answer_char {c : Console} (hformat : c.format = .char) (hend : c.failure = none) (k : Nat) :
    c.answer k = (c.input.map fun ch => Except.ok (ch.toNat : Int))[k]?.getD (.ok 0) := by
  refine answer_of_step (fun c => c.input.map fun ch => .ok ch.toNat)
    (p := fun c => c.format = .char ∧ c.failure = none) ?_ ⟨hformat, hend⟩ k
  rintro c ⟨hformat, hend⟩
  cases hinput : c.input with
  | nil => simp [read, readChar, atEnd, hformat, hinput, hend]
  | cons ch rest => simp [read, readChar, hformat, hinput, hend]

/-- A Unicode scalar value: a code point that is no surrogate. -/
def IsScalar (v : Int) : Prop := (0 ≤ v ∧ v ≤ 0x10ffff) ∧ ¬ (0xd800 ≤ v ∧ v ≤ 0xdfff)

instance : DecidablePred IsScalar := fun _ => inferInstanceAs (Decidable (_ ∧ _))

theorem toNat_charOf (v : Int) : ((charOf v).toNat : Int) = if IsScalar v then v else 0xfffd := by
  have hvalid : 0 ≤ v ∧ v.toNat.isValidChar ↔ IsScalar v := by
    simp only [Nat.isValidChar, IsScalar]
    omega
  rw [charOf]
  by_cases hv : IsScalar v
  · obtain ⟨hnonneg, hchar⟩ := hvalid.mpr hv
    rw [if_pos (hvalid.mpr hv), if_pos hv, Char.ofNat, dif_pos hchar]
    exact Int.toNat_of_nonneg hnonneg
  · rw [if_neg (mt hvalid.mp hv), if_neg hv]
    rfl

/-- What was written as characters is well-formed, and reading gives one value for each that was
written: the value itself if it is a Unicode scalar value, and U+FFFD for any other; then zeros. -/
theorem characters_read_back (vs : List Int) :
    ∃ out : Console, writeAll { format := .char, input := [] } vs = (.ok (), out) ∧
      let bytes := Utf8.encode out.output.toList
      Utf8.isValid bytes = true ∧ bytes.toByteArray.IsValidUTF8 ∧
      ∀ k, answer { format := .char, input := Utf8.decode bytes } k =
        .ok (match vs[k]? with
          | some v => if IsScalar v then v else 0xfffd
          | none => 0) := by
  obtain ⟨out, hwrite, houtput⟩ := exists_writeAll (c := { format := .char, input := [] }) rfl vs
  have hchars : out.output.toList = vs.map charOf := by
    rw [houtput]
    simp [render, List.map_eq_flatMap]
  refine ⟨out, hwrite, Utf8.isValid_encode _, ⟨out.output.toList, Utf8.encode_toByteArray _⟩,
    fun k => ?_⟩
  rw [answer_char rfl rfl, Utf8.decode_encode, hchars, List.map_map, List.getElem?_map]
  cases vs[k]? with
  | none => rfl
  | some v => exact congrArg Except.ok (toNat_charOf v)

/-! ## Numbers -/

open Text (words IsWord isBlank)
open Assembly (Writes)

/-- One request takes one word off the input, or leaves nothing of an input without words. -/
theorem exists_readNumber_eq {c : Console} (hend : c.failure = none) :
    ∃ rest, c.readNumber =
        (((words c.input).map readNumber.parsed).head?.getD (.ok 0), { c with input := rest }) ∧
      words rest = (words c.input).tail := by
  rcases Text.exists_words_eq c.input with
    ⟨hblank, hwords⟩ | ⟨lead, w, t, hinput, hlead, hw, ht, hwords⟩
  · have hstart : Text.trimStart c.input = [] := List.dropWhile_eq_nil_iff.mpr hblank
    refine ⟨[], ?_, by rw [hwords, Text.words_nil]; rfl⟩
    simp [readNumber, hstart, hwords, atEnd, hend]
  · obtain ⟨d, w', rfl⟩ := List.exists_cons_of_ne_nil hw.1
    have hstart : Text.trimStart c.input = d :: w' ++ t := by
      rw [hinput]
      refine (Text.takeWhile_dropWhile_append hlead fun e he => ?_).2
      exact hw.2 e (by cases he; exact List.mem_cons_self)
    have hword : ∀ e ∈ d :: w', (! isBlank e) = true := fun e he => by simp [hw.2 e he]
    have hafter : ∀ e ∈ t.head?, (! isBlank e) = false := fun e he => by simp [ht e he]
    obtain ⟨htake, hdrop⟩ := Text.takeWhile_dropWhile_append (p := (! isBlank ·)) hword hafter
    rw [hwords]
    cases t with
    | nil =>
      refine ⟨[], ?_, rfl⟩
      simp only [readNumber, hstart, htake, hdrop, hend]
      rfl
    | cons e t =>
      refine ⟨t, ?_, (Text.words_cons_blank (ht e rfl) t).symm⟩
      simp only [readNumber, hstart, htake, hdrop]
      rfl

theorem answer_number {c : Console} (hformat : c.format = .number) (hend : c.failure = none)
    (k : Nat) : c.answer k = ((words c.input).map readNumber.parsed)[k]?.getD (.ok 0) := by
  refine answer_of_step (fun c => (words c.input).map readNumber.parsed)
    (p := fun c => c.format = .number ∧ c.failure = none) ?_ ⟨hformat, hend⟩ k
  rintro c ⟨hformat, hend⟩
  obtain ⟨rest, hread, hrest⟩ := exists_readNumber_eq hend
  have hnumber : c.read = c.readNumber := by simp only [read, hformat]
  rw [hnumber, hread]
  exact ⟨rfl, ⟨hformat, hend⟩, by rw [hrest, List.map_tail]⟩

theorem parsed_eq_ok_iff {w : List Char} {n : Int} :
    readNumber.parsed w = .ok n ↔ Writes w (some n) := by
  rw [← Assembly.int?_eq_some_iff, readNumber.parsed]
  cases Decimal.int? w <;> simp

theorem parsed_of_not_writes {w : List Char} (h : ∀ n, ¬ Writes w (some n)) :
    readNumber.parsed w = .error (.notANumber (String.ofList w)) := by
  cases hread : Decimal.int? w with
  | none => rw [readNumber.parsed, hread]
  | some n => exact absurd (Assembly.int?_eq_some_iff.mp hread) (h n)

/-! ### Numbers that were written -/

theorem isWord_int (n : Int) : IsWord (Decimal.int n) := by
  refine ⟨Assembly.int_ne_nil n, fun c hc => ?_⟩
  exact Assembly.isBlank_eq_false (.inr (Assembly.toNat_of_mem_int hc))

/-- Each number that was written is a word. -/
theorem words_flatMap_render (vs : List Int) :
    words (vs.flatMap fun v => (render .number v).toList) = vs.map Decimal.int := by
  induction vs with
  | nil => exact Text.words_nil
  | cons v vs ih =>
    have hfeed : isBlank '\n' = true := by decide
    have hline : (render .number v).toList = Decimal.int v ++ ['\n'] := by
      simp [render, Decimal.text]
    rw [List.flatMap_cons, hline, List.append_assoc, List.singleton_append,
      Text.words_append_blank hfeed, (isWord_int v).words_eq, ih, List.map_cons,
      List.singleton_append]

/-- Numbers are read word by word, and the words are the longest runs of characters that are no
blanks. The answer to a request that follows `k` others is settled by the word that follows `k`
others: the number that it writes, or the error that quotes it, or zero if there is no such word. So
a word, whatever it is, changes no answer but its own. What was written as numbers is read back as
it was, and then come zeros. -/
theorem numbers_answer_and_read_back :
    (∀ (input w : List Char) (k : Nat), (words input)[k]? = some w ↔
      IsWord w ∧ ∃ s t, input = s ++ (w ++ t) ∧ (∀ c ∈ s.getLast?, isBlank c = true) ∧
        (∀ c ∈ t.head?, isBlank c = true) ∧ (words s).length = k) ∧
    (∀ (input : List Char) (k : Nat) (w : List Char), (words input)[k]? = some w →
      (∀ n, answer { format := .number, input } k = .ok n ↔ Writes w (some n)) ∧
      ((∀ n, ¬ Writes w (some n)) → ∃ e, answer { format := .number, input } k = .error e ∧
        e.message = "read: invalid number " ++ Text.quoted (String.ofList w))) ∧
    (∀ (input : List Char) (k : Nat), (words input).length ≤ k →
      answer { format := .number, input } k = .ok 0) ∧
    (∀ s w w' t : List Char, IsWord w → IsWord w' → (∀ c ∈ s.getLast?, isBlank c = true) →
      (∀ c ∈ t.head?, isBlank c = true) → ∀ k ≠ (words s).length,
        answer { format := .number, input := s ++ (w ++ t) } k =
          answer { format := .number, input := s ++ (w' ++ t) } k) ∧
    ∀ vs : List Int, ∃ out : Console,
      writeAll { format := .number, input := [] } vs = (.ok (), out) ∧
      ∀ k, answer { format := .number, input := Utf8.decode (Utf8.encode out.output.toList) } k =
        .ok (vs[k]?.getD 0) := by
  have hanswer (input : List Char) (k : Nat) : answer { format := .number, input } k =
      ((words input).map readNumber.parsed)[k]?.getD (.ok 0) := answer_number rfl rfl k
  refine ⟨fun input w k => Text.getElem?_words_eq_some_iff, fun input k w hw => ?_,
    fun input k hk => ?_, fun s w w' t h h' hs ht k hk => ?_, fun vs => ?_⟩
  · rw [hanswer, List.getElem?_map, hw]
    exact ⟨fun n => parsed_eq_ok_iff, fun h => ⟨_, parsed_of_not_writes h, rfl⟩⟩
  · rw [hanswer, List.getElem?_map, List.getElem?_eq_none hk]
    rfl
  · -- The words of the two inputs differ in one place only.
    have hset : words s ++ w' :: words t = (words s ++ w :: words t).set (words s).length w' := by
      simp
    rw [hanswer, hanswer, h.words_append_append hs ht, h'.words_append_append hs ht, hset,
      List.getElem?_map, List.getElem?_map, List.getElem?_set_ne (Ne.symm hk)]
  · obtain ⟨out, hwrite, houtput⟩ :=
      exists_writeAll (c := { format := .number, input := [] }) rfl vs
    have hwords : words out.output.toList = vs.map Decimal.int := by
      rw [houtput]
      exact words_flatMap_render vs
    refine ⟨out, hwrite, fun k => ?_⟩
    rw [hanswer, Utf8.decode_encode, hwords, List.map_map, List.getElem?_map]
    cases vs[k]? with
    | none => rfl
    | some v => exact parsed_eq_ok_iff.mpr (Assembly.int?_eq_some_iff.mp (Decimal.int?_int v))

/-- A word that is no number, between blanks other than spaces, and after it a number with a sign
and a zero in front and without a blank at the end. -/
theorem numbers_answer_and_read_back_malformed :
    let input := "\u00a012a\u2003+07".toList
    let mended := "\u00a05\u2003+07".toList
    (words input = ["12a".toList, "+07".toList] ∧
      (∃ e, answer { format := .number, input } 0 = .error e ∧
        e.message = "read: invalid number " ++ Text.quoted "12a") ∧
      answer { format := .number, input } 1 = .ok 7 ∧
      answer { format := .number, input } 2 = .ok 0) ∧
    answer { format := .number, input } 1 = answer { format := .number, input := mended } 1 := by
  obtain ⟨-, hword, hend, hother, -⟩ := numbers_answer_and_read_back
  have hwords : words "\u00a012a\u2003+07".toList = ["12a".toList, "+07".toList] := by decide
  have hmalformed (n : Int) : ¬ Writes "12a".toList (some n) := by
    rw [← Assembly.int?_eq_some_iff, show Decimal.int? "12a".toList = none from rfl]
    simp
  refine ⟨⟨hwords, (hword _ 0 "12a".toList (by rw [hwords]; rfl)).2 hmalformed, ?_, ?_⟩, ?_⟩
  · exact ((hword _ 1 "+07".toList (by rw [hwords]; rfl)).1 7).mpr
      (Assembly.int?_eq_some_iff.mp (by decide))
  · exact hend _ 2 (by rw [hwords]; decide)
  · exact hother "\u00a0".toList "12a".toList "5".toList "\u2003+07".toList
      ⟨by simp, by simp [isBlank]⟩ ⟨by simp, by simp [isBlank]⟩ (by simp [isBlank])
      (by simp [isBlank]) 1 (by decide)

end Contour.Console
