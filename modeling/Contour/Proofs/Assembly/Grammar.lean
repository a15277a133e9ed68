import Contour.Proofs.Assembly.Parts

/-!
# The grammar of lines of assembly

What stands on a line before its first comment marker (`IsBeforeComment`), taken without the blanks
at its ends (`IsCore`), is an instruction if it is letters, a gap, and perhaps a number
(`HasForm`):

* `beforeComment_eq_iff`, `trim_eq_iff`, `instruction?_eq_some_iff`: the three steps in which a line
  is read, each by what its result is and not by how it is found;
* `HasForm.unique`: a line has such a form in one way only;
* `ofLine?_iff_hasForm_and_reads_text`: a line is read as an instruction exactly if it has the form
  of one, and the text of an instruction has that form, whatever blanks stand around it and whatever
  comment after it.
-/

namespace Contour.Assembly

/-! ## Before the comment -/

/-- The texts with which comments start. -/
def commentMarkers : List (List Char) := [[';'], ['/', '/'], ['#'], ['%'], ['!']]

/-- The part of a line before the first occurrence of a marker; the whole line if there is none. -/
structure IsBeforeComment (line code : List Char) : Prop where
  /-- A marker follows, or nothing does. -/
  ends : ∃ rest, line = code ++ rest ∧ (rest = [] ∨ ∃ m ∈ commentMarkers, m <+: rest)
  /-- No marker stands further to the front. -/
  first : ∀ k < code.length, ∀ m ∈ commentMarkers, ¬ m <+: line.drop k

theorem startsComment_iff {s : List Char} :
    startsComment s = true ↔ ∃ m ∈ commentMarkers, m <+: s := by
  constructor
  · intro h
    unfold startsComment at h
    split at h
    · exact ⟨[';'], by decide, by simp⟩
    · exact ⟨['#'], by decide, by simp⟩
    · exact ⟨['%'], by decide, by simp⟩
    · exact ⟨['!'], by decide, by simp⟩
    · exact ⟨['/', '/'], by decide, by simp⟩
    · cases h
  · rintro ⟨m, hm, rest, rfl⟩
    simp only [commentMarkers, List.mem_cons, List.not_mem_nil, or_false] at hm
    rcases hm with rfl | rfl | rfl | rfl | rfl <;> rfl

/-- Reading a line up to its comment finds the first marker. -/
theorem isBeforeComment_beforeComment (line : List Char) :
    IsBeforeComment line (beforeComment line) := by
  fun_induction beforeComment line with
  | case1 => exact ⟨⟨[], rfl, .inl rfl⟩, by simp⟩
  | case2 c rest h => exact ⟨⟨c :: rest, rfl, .inr (startsComment_iff.mp h)⟩, by simp⟩
  | case3 c rest h ih =>
    obtain ⟨after, hrest, hafter⟩ := ih.ends
    refine ⟨⟨after, by rw [List.cons_append, ← hrest], hafter⟩, fun k hk m hm hprefix => ?_⟩
    cases k with
    | zero => exact h (startsComment_iff.mpr ⟨m, hm, hprefix⟩)
    | succ k => exact ih.first k (by simpa using hk) m hm hprefix

/-- Of two such parts neither is shorter: the marker after the shorter one would stand in the other,
or in front of its end. -/
theorem IsBeforeComment.length_le {line code code' : List Char} (h : IsBeforeComment line code)
    (h' : IsBeforeComment line code') : code'.length ≤ code.length := by
  by_contra hlt
  obtain ⟨rest, hrest, hafter⟩ := h.ends
  have hdrop : line.drop code.length = rest := by rw [hrest, List.drop_left]
  rcases hafter with rfl | ⟨m, hm, hprefix⟩
  · obtain ⟨rest', hrest', -⟩ := h'.ends
    have hlength := congrArg List.length (hrest.symm.trans hrest')
    simp only [List.length_append, List.length_nil] at hlength
    omega
  · exact h'.first code.length (by omega) m hm (hdrop ▸ hprefix)

theorem beforeComment_eq_iff {line code : List Char} :
    beforeComment line = code ↔ IsBeforeComment line code := by
  have hfound := isBeforeComment_beforeComment line
  constructor
  · rintro rfl
    exact hfound
  · intro h
    obtain ⟨rest, hrest, -⟩ := hfound.ends
    obtain ⟨rest', hrest', -⟩ := h.ends
    have hlength := Nat.le_antisymm (h.length_le hfound) (hfound.length_le h)
    exact (List.append_inj (hrest.symm.trans hrest') hlength).1

/-! ## Numbers -/

/-- A non-empty run of digits. -/
def IsDigits (s : List Char) : Prop := s ≠ [] ∧ ∀ c ∈ s, c.isDigit = true

/-- The number that digits stand for, the most significant first. -/
def numeral (s : List Char) : Nat := Nat.ofDigits 10 (s.reverse.map fun c => c.toNat - 48)

/-- What may stand for the argument of an instruction: nothing, or perhaps a sign and digits. -/
inductive Writes : List Char → Option Int → Prop where
  | nothing : Writes [] none
  | plain {s : List Char} (h : IsDigits s) : Writes s (some (numeral s))
  | plus {s : List Char} (h : IsDigits s) : Writes ('+' :: s) (some (numeral s))
  | minus {s : List Char} (h : IsDigits s) : Writes ('-' :: s) (some (-(numeral s : Int)))

theorem mapM_digit? {s : List Char} (h : ∀ c ∈ s, c.isDigit = true) :
    s.mapM Decimal.digit? = some (s.map fun c => c.toNat - 48) := by
  induction s with
  | nil => rfl
  | cons c s ih =>
    rw [List.forall_mem_cons] at h
    rw [List.mapM_cons, Decimal.digit?, if_pos h.1, ih h.2]
    rfl

theorem nat?_eq_some_iff {s : List Char} {n : Nat} :
    Decimal.nat? s = some n ↔ IsDigits s ∧ n = numeral s := by
  have hvalue (h : IsDigits s) : Decimal.nat? s = some (numeral s) := by
    rw [Decimal.nat?, if_neg (by simpa using h.1), mapM_digit? h.2, Option.map_some,
      Decimal.value_eq, numeral, List.map_reverse]
  constructor
  · intro h
    have hdigits : IsDigits s := isDigit_of_nat? h
    exact ⟨hdigits, Option.some.inj (h.symm.trans (hvalue hdigits))⟩
  · rintro ⟨hdigits, rfl⟩
    exact hvalue hdigits

theorem int?_eq_some_iff {s : List Char} {n : Int} :
    Decimal.int? s = some n ↔ Writes s (some n) := by
  constructor
  · intro h
    unfold Decimal.int? at h
    split at h <;> obtain ⟨_, hcast, rfl⟩ := Option.map_eq_some_iff.mp h <;>
      obtain ⟨m, hm, ⟨⟩⟩ := Option.bind_eq_some_iff.mp hcast <;>
      obtain ⟨hdigits, rfl⟩ := nat?_eq_some_iff.mp hm
    · exact .minus hdigits
    · exact .plus hdigits
    · exact .plain hdigits
  · intro h
    cases h with
    | plain h =>
      -- A digit is no sign.
      rw [Decimal.int?, nat?_eq_some_iff.mpr ⟨h, rfl⟩]
      · rfl
      · rintro t rfl
        exact absurd (h.2 '-' List.mem_cons_self) (by decide)
      · rintro t rfl
        exact absurd (h.2 '+' List.mem_cons_self) (by decide)
    | plus h =>
      rw [Decimal.int?, nat?_eq_some_iff.mpr ⟨h, rfl⟩]
      rfl
    | minus h =>
      rw [Decimal.int?, nat?_eq_some_iff.mpr ⟨h, rfl⟩]
      rfl

theorem writes_none_iff {s : List Char} : Writes s none ↔ s = [] := by
  constructor
  · rintro ⟨⟩
    rfl
  · rintro rfl
    exact .nothing

/-- A text stands for one argument only. -/
theorem Writes.unique {s : List Char} {a a' : Option Int} (h : Writes s a) (h' : Writes s a') :
    a = a' := by
  have hread {n : Int} (hn : Writes s (some n)) : s ≠ [] :=
    (isNumeral_of_int? (int?_eq_some_iff.mpr hn)).1
  cases a with
  | none =>
    cases a' with
    | none => rfl
    | some n => exact absurd (writes_none_iff.mp h) (hread h')
  | some m =>
    cases a' with
    | none => exact absurd (writes_none_iff.mp h') (hread h)
    | some n => rw [← int?_eq_some_iff.mpr h, ← int?_eq_some_iff.mpr h']

theorem Writes.isNumeral {s : List Char} {a : Option Int} (h : Writes s a) :
    ∀ c ∈ s, isNumeral c = true := by
  cases a with
  | none => simp [writes_none_iff.mp h]
  | some n => exact (isNumeral_of_int? (int?_eq_some_iff.mpr h)).2

/-! ## Letters, a gap and a number -/

/-- The form of an instruction: letters, a gap, and what may stand for its argument. -/
structure IsPhrase (letters gap number : List Char) (argument : Option Int) : Prop where
  ne_nil : letters ≠ []
  isLetters : ∀ c ∈ letters, isMnemonicChar c = true
  isGap : ∀ c ∈ gap, isGap c = true
  writes : Writes number argument

/-- The kinds of characters tell where a part ends. -/
theorem IsPhrase.parts {letters gap number : List Char} {argument : Option Int}
    (h : IsPhrase letters gap number argument) :
    (letters ++ (gap ++ number)).takeWhile isMnemonicChar = letters ∧
      ((letters ++ (gap ++ number)).dropWhile isMnemonicChar).takeWhile Assembly.isGap = gap ∧
      ((letters ++ (gap ++ number)).dropWhile isMnemonicChar).dropWhile Assembly.isGap =
        number := by
  have hnumber : ∀ c ∈ number.head?, Assembly.isGap c = false := by
    intro c hc
    refine Bool.eq_false_iff.mpr fun hgap => ?_
    have := toNat_of_isGap hgap
    have := toNat_of_isNumeral (h.writes.isNumeral c (List.mem_of_mem_head? hc))
    omega
  have hrest : ∀ c ∈ (gap ++ number).head?, isMnemonicChar c = false := by
    intro c hc
    refine Bool.eq_false_iff.mpr fun hletter => ?_
    have := toNat_of_isMnemonicChar hletter
    rcases List.mem_append.mp (List.mem_of_mem_head? hc) with hc | hc
    · have := toNat_of_isGap (h.isGap c hc)
      omega
    · have := toNat_of_isNumeral (h.writes.isNumeral c hc)
      omega
  obtain ⟨htake, hdrop⟩ := Text.takeWhile_dropWhile_append h.isLetters hrest
  obtain ⟨hgap, hleft⟩ := Text.takeWhile_dropWhile_append h.isGap hnumber
  exact ⟨htake, by rw [hdrop, hgap], by rw [hdrop, hleft]⟩

theorem instruction?_eq_some_iff {code : List Char} {i : Instruction} :
    instruction? code = some i ↔ ∃ letters gap number argument,
      code = letters ++ (gap ++ number) ∧ IsPhrase letters gap number argument ∧
        i = { mnemonic := String.ofList letters, argument } := by
  constructor
  · intro h
    have hcode : code = code.takeWhile isMnemonicChar ++
        ((code.dropWhile isMnemonicChar).takeWhile isGap ++
          (code.dropWhile isMnemonicChar).dropWhile isGap) := by
      rw [List.takeWhile_append_dropWhile, List.takeWhile_append_dropWhile]
    simp only [instruction?, Option.ite_none_left_eq_some, List.isEmpty_iff] at h
    obtain ⟨hne, h⟩ := h
    split at h
    · rename_i hnumber
      cases h
      rw [hnumber] at hcode
      exact ⟨_, _, _, none, hcode, ⟨hne, fun c hc => List.mem_takeWhile_imp hc,
        fun c hc => List.mem_takeWhile_imp hc, .nothing⟩, rfl⟩
    · obtain ⟨n, hn, rfl⟩ := Option.map_eq_some_iff.mp h
      exact ⟨_, _, _, some n, hcode, ⟨hne, fun c hc => List.mem_takeWhile_imp hc,
        fun c hc => List.mem_takeWhile_imp hc, int?_eq_some_iff.mp hn⟩, rfl⟩
  · rintro ⟨letters, gap, number, argument, rfl, h, rfl⟩
    obtain ⟨hletters, -, hnumber⟩ := h.parts
    simp only [instruction?, hletters, hnumber, List.isEmpty_iff, if_neg h.ne_nil]
    cases argument with
    | none => rw [writes_none_iff.mp h.writes]
    | some n =>
      have hn := int?_eq_some_iff.mpr h.writes
      split
      · exact absurd rfl (isNumeral_of_int? hn).1
      · rw [hn, Option.map_some]

/-! ## Lines -/

/-- A line with the form of an instruction. -/
structure HasForm (line letters gap number : List Char) (argument : Option Int) : Prop where
  /-- What stands before the comment and between the blanks is the whole instruction. -/
  core : ∃ code, IsBeforeComment line code ∧ Text.IsCore code (letters ++ (gap ++ number))
  phrase : IsPhrase letters gap number argument

theorem codeOf_eq_of_core {line core : List Char}
    (h : ∃ code, IsBeforeComment line code ∧ Text.IsCore code core) : codeOf line = core := by
  obtain ⟨code, hcode, hcore⟩ := h
  rw [codeOf, beforeComment_eq_iff.mpr hcode, Text.trim_eq_iff.mpr hcore]

theorem ofLine?_eq_some_iff {line : List Char} {i : Instruction} :
    ofLine? line = some i ↔ ∃ letters gap number argument,
      HasForm line letters gap number argument ∧
        i = { mnemonic := String.ofList letters, argument } := by
  rw [ofLine?, instruction?_eq_some_iff]
  constructor
  · rintro ⟨letters, gap, number, argument, hcode, hphrase, rfl⟩
    have hcore : Text.IsCore (beforeComment line) (letters ++ (gap ++ number)) :=
      hcode ▸ Text.isCore_trim _
    exact ⟨letters, gap, number, argument,
      ⟨⟨_, isBeforeComment_beforeComment line, hcore⟩, hphrase⟩, rfl⟩
  · rintro ⟨letters, gap, number, argument, h, rfl⟩
    exact ⟨letters, gap, number, argument, codeOf_eq_of_core h.core, h.phrase, rfl⟩

/-- A line has the form of an instruction in one way only. -/
theorem HasForm.unique {line letters gap number letters' gap' number' : List Char}
    {argument argument' : Option Int} (h : HasForm line letters gap number argument)
    (h' : HasForm line letters' gap' number' argument') :
    letters = letters' ∧ gap = gap' ∧ number = number' ∧ argument = argument' := by
  have hcode : letters ++ (gap ++ number) = letters' ++ (gap' ++ number') := by
    rw [← codeOf_eq_of_core h.core, ← codeOf_eq_of_core h'.core]
  obtain ⟨hletters, hgap, hnumber⟩ := h.phrase.parts
  obtain ⟨hletters', hgap', hnumber'⟩ := h'.phrase.parts
  rw [hcode] at hletters hgap hnumber
  obtain rfl : number = number' := hnumber.symm.trans hnumber'
  exact ⟨hletters.symm.trans hletters', hgap.symm.trans hgap', rfl,
    h.phrase.writes.unique h'.phrase.writes⟩

theorem beforeComment_of_marker {m : List Char} (h : m ∈ commentMarkers) (t : List Char) :
    beforeComment (m ++ t) = [] := by
  simp only [commentMarkers, List.mem_cons, List.not_mem_nil, or_false] at h
  rcases h with rfl | rfl | rfl | rfl | rfl <;> rfl

/-- A line is read as an instruction exactly if what stands before its first comment marker and
between blanks is letters, a gap and perhaps a number, and then in one way only, which gives its
mnemonic and its argument. So is the text of every instruction with such a mnemonic, with any blanks
around it, and with any comment after them: it gives back the mnemonic and the argument. -/
theorem ofLine?_iff_hasForm_and_reads_text :
    (∀ line : List Char, (ofLine? line).isSome ↔
      ∃ letters gap number argument, HasForm line letters gap number argument) ∧
    (∀ (line letters gap number : List Char) (argument : Option Int),
      HasForm line letters gap number argument →
        ofLine? line = some { mnemonic := String.ofList letters, argument } ∧
        ∀ (letters' gap' number' : List Char) (argument' : Option Int),
          HasForm line letters' gap' number' argument' →
            letters' = letters ∧ gap' = gap ∧ number' = number ∧ argument' = argument) ∧
    (∀ i : Instruction, IsSpelled i → ∀ u v : List Char, (∀ c ∈ u, Text.isBlank c = true) →
      (∀ c ∈ v, Text.isBlank c = true) →
        ofLine? (u ++ (i.text.toList ++ v)) =
          some { mnemonic := i.mnemonic, argument := i.argument } ∧
        ∀ m ∈ commentMarkers, ∀ t : List Char,
          ofLine? (u ++ (i.text.toList ++ (v ++ (m ++ t)))) =
            some { mnemonic := i.mnemonic, argument := i.argument }) := by
  refine ⟨fun line => ?_, fun line letters gap number argument h => ⟨?_, ?_⟩,
    fun i hi u v hu hv => ⟨?_, fun m hm t => ?_⟩⟩
  · constructor
    · intro h
      obtain ⟨i, hi⟩ := Option.isSome_iff_exists.mp h
      obtain ⟨letters, gap, number, argument, hform, -⟩ := ofLine?_eq_some_iff.mp hi
      exact ⟨letters, gap, number, argument, hform⟩
    · rintro ⟨letters, gap, number, argument, hform⟩
      rw [ofLine?_eq_some_iff.mpr ⟨letters, gap, number, argument, hform, rfl⟩]
      rfl
  · exact ofLine?_eq_some_iff.mpr ⟨letters, gap, number, argument, h, rfl⟩
  · exact fun letters' gap' number' argument' h' => h'.unique h
  · have hline := @ofLine?_text_margins i hi u v [] hu hv rfl
    rwa [List.append_nil] at hline
  · exact ofLine?_text_margins hi hu hv (beforeComment_of_marker hm t)

/-- A no-break space in front, two markers that overlap, a sign and a zero before the digits; and an
instruction between blanks that are no gaps. -/
theorem ofLine?_iff_hasForm_and_reads_text_marked :
    (HasForm "\u00a0push\t-07 ///; 8".toList "push".toList "\t".toList "-07".toList (some (-7)) ∧
      ofLine? "\u00a0push\t-07 ///; 8".toList =
        some { mnemonic := "push", argument := some (-7) }) ∧
    ofLine? ("\u00a0".toList ++ ("push -7".toList ++ ("\u3000".toList ++ ("%".toList ++
      "//".toList)))) = some { mnemonic := "push", argument := some (-7) } := by
  obtain ⟨-, hread, hback⟩ := ofLine?_iff_hasForm_and_reads_text
  have hcode : IsBeforeComment "\u00a0push\t-07 ///; 8".toList "\u00a0push\t-07 ".toList :=
    beforeComment_eq_iff.mp (by decide)
  have hphrase : IsPhrase "push".toList "\t".toList "-07".toList (some (-7)) :=
    ⟨by decide, List.all_eq_true.mp (by decide), List.all_eq_true.mp (by decide),
      int?_eq_some_iff.mp (by decide)⟩
  have hform : HasForm "\u00a0push\t-07 ///; 8".toList "push".toList "\t".toList "-07".toList
      (some (-7)) := ⟨⟨_, hcode, Text.trim_eq_iff.mp (by decide)⟩, hphrase⟩
  refine ⟨⟨hform, (hread _ _ _ _ _ hform).1⟩, ?_⟩
  have htext : ({ mnemonic := "push", argument := some (-7) } : Instruction).text = "push -7" := by
    decide +kernel
  rw [← htext]
  exact (hback { mnemonic := "push", argument := some (-7) }
    ⟨by decide, List.all_eq_true.mp (by decide)⟩ "\u00a0".toList "\u3000".toList
    (List.all_eq_true.mp (by decide)) (List.all_eq_true.mp (by decide))).2 ['%'] (by decide)
    "//".toList

end Contour.Assembly
