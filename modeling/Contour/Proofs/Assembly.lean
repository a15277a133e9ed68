import Contour.Assembly
import Contour.Proofs.Decimal
import Contour.Proofs.Text.Blank
import Contour.Proofs.Text.Lines

/-!
# Instructions as lines of assembly

The text of an instruction whose mnemonic is made of letters is read back as its mnemonic and its
argument (`ofLine?_text`): it holds no comment, has no blanks at its ends, and the one blank in it
parts the letters from the number. Blanks around it and a comment after it change nothing
(`ofLine?_text_margins`).

Lines are read one by one, so that those of a text can be read in parts (`ofLinesFrom_append`).
-/

namespace Contour.Assembly

/-! ## Characters -/

theorem toNat_of_isMnemonicChar {c : Char} (h : isMnemonicChar c = true) :
    97 ≤ c.toNat ∧ c.toNat ≤ 122 := by
  simp only [isMnemonicChar, Bool.and_eq_true, decide_eq_true_eq] at h
  exact ⟨UInt32.le_iff_toNat_le.mp h.1, UInt32.le_iff_toNat_le.mp h.2⟩

theorem toNat_of_isDigit {c : Char} (h : c.isDigit = true) : 48 ≤ c.toNat ∧ c.toNat ≤ 57 := by
  simp only [Char.isDigit, Bool.and_eq_true, decide_eq_true_eq] at h
  exact ⟨UInt32.le_iff_toNat_le.mp h.1, UInt32.le_iff_toNat_le.mp h.2⟩

/-- The characters of a written number: a dash or a digit. -/
theorem toNat_of_mem_int {n : Int} {c : Char} (h : c ∈ Decimal.int n) :
    c.toNat = 45 ∨ (48 ≤ c.toNat ∧ c.toNat ≤ 57) := by
  have hnat : c ∈ Decimal.nat n.natAbs → 48 ≤ c.toNat ∧ c.toNat ≤ 57 :=
    fun h => toNat_of_isDigit (Decimal.isDigit_of_mem_nat h)
  rw [Decimal.int] at h
  split at h
  · rcases List.mem_cons.mp h with rfl | h
    · exact .inl rfl
    · exact .inr (hnat h)
  · exact .inr (hnat h)

theorem int_ne_nil (n : Int) : Decimal.int n ≠ [] := by
  rw [Decimal.int]
  split
  · simp
  · simpa [Decimal.nat] using Decimal.digits_ne_nil _

/-! ## Comments and blanks -/

/-- The characters with which comments start. -/
def markers : List Char := [';', '#', '%', '!', '/']

theorem mem_markers_of_startsComment {c : Char} {s : List Char}
    (h : startsComment (c :: s) = true) : c ∈ markers := by
  unfold startsComment at h
  split at h
  case h_6 => cases h
  all_goals
    rename_i heq
    cases heq
    decide

/-- No comment starts among characters that are no markers. -/
theorem beforeComment_append {s : List Char} (h : ∀ c ∈ s, c ∉ markers) (t : List Char) :
    beforeComment (s ++ t) = s ++ beforeComment t := by
  induction s with
  | nil => rfl
  | cons c s ih =>
    have hc := h c List.mem_cons_self
    rw [List.cons_append, beforeComment, if_neg (mt mem_markers_of_startsComment hc),
      ih fun d hd => h d (List.mem_cons_of_mem _ hd), List.cons_append]

theorem toNat_of_mem_markers {c : Char} (h : c ∈ markers) :
    c.toNat = 59 ∨ c.toNat = 35 ∨ c.toNat = 37 ∨ c.toNat = 33 ∨ c.toNat = 47 := by
  have hcode : c.toNat ∈ markers.map Char.toNat := List.mem_map_of_mem h
  simpa [markers] using hcode

theorem toNat_of_isBlank {c : Char} (h : Text.isBlank c = true) :
    c.toNat ≤ 32 ∨ 133 ≤ c.toNat := by
  simp only [Text.isBlank, Bool.or_eq_true, Bool.and_eq_true, decide_eq_true_eq, beq_iff_eq] at h
  omega

theorem isBlank_eq_false {c : Char}
    (h : (97 ≤ c.toNat ∧ c.toNat ≤ 122) ∨ c.toNat = 45 ∨ (48 ≤ c.toNat ∧ c.toNat ≤ 57)) :
    Text.isBlank c = false := by
  simp only [Text.isBlank, Bool.or_eq_false_iff, Bool.and_eq_false_iff, decide_eq_false_iff_not,
    beq_eq_false_iff_ne]
  omega

theorem isBlank_of_isGap {c : Char} (h : isGap c = true) : Text.isBlank c = true := by
  simp only [isGap, Bool.or_eq_true, beq_iff_eq] at h
  rcases h with (((rfl | rfl) | h) | rfl) | rfl
  · decide
  · decide
  · simp [Text.isBlank, h]
  · decide
  · decide

/-! ## One line -/

theorem instruction?_letters {letters : List Char} (hne : letters ≠ [])
    (hletters : ∀ c ∈ letters, isMnemonicChar c = true) :
    instruction? letters = some { mnemonic := String.ofList letters } := by
  have htake : letters.takeWhile isMnemonicChar = letters :=
    List.takeWhile_eq_self_iff.mpr hletters
  have hdrop : letters.dropWhile isMnemonicChar = [] := List.dropWhile_eq_nil_iff.mpr hletters
  simp [instruction?, htake, hdrop, hne]

/-- A number after letters and a space. -/
theorem instruction?_number {letters : List Char} (hne : letters ≠ [])
    (hletters : ∀ c ∈ letters, isMnemonicChar c = true) (n : Int) :
    instruction? (letters ++ ' ' :: Decimal.int n) =
      some { mnemonic := String.ofList letters, argument := some n } := by
  have htake : (letters ++ ' ' :: Decimal.int n).takeWhile isMnemonicChar = letters := by
    rw [List.takeWhile_append_of_pos hletters, List.takeWhile_cons_of_neg (by decide),
      List.append_nil]
  have hdrop : (letters ++ ' ' :: Decimal.int n).dropWhile isMnemonicChar =
      ' ' :: Decimal.int n := by
    rw [List.dropWhile_append_of_pos hletters, List.dropWhile_cons_of_neg (by decide)]
  obtain ⟨c, s, hint⟩ := List.exists_cons_of_ne_nil (int_ne_nil n)
  have hgap : isGap c = false := by
    by_contra h
    have hc := toNat_of_mem_int (n := n) (hint ▸ List.mem_cons_self)
    have hblank := isBlank_of_isGap (Bool.not_eq_false _ ▸ h)
    rw [isBlank_eq_false (.inr hc)] at hblank
    exact absurd hblank (by decide)
  have hnumber : (' ' :: Decimal.int n).dropWhile isGap = c :: s := by
    rw [List.dropWhile_cons_of_pos (by decide), hint, List.dropWhile_cons_of_neg (by simp [hgap])]
  simp only [instruction?, htake, hdrop, hnumber, List.isEmpty_iff, if_neg hne]
  rw [← hint, Decimal.int?_int, Option.map_some]

/-- The mnemonic is spelled with letters. -/
structure IsSpelled (i : Instruction) : Prop where
  ne_nil : i.mnemonic.toList ≠ []
  letters : ∀ c ∈ i.mnemonic.toList, isMnemonicChar c = true

theorem toList_text (i : Instruction) :
    i.text.toList = i.mnemonic.toList ++ i.argument.elim [] (' ' :: Decimal.int ·) := by
  rw [Instruction.text]
  cases i.argument with
  | none => simp
  | some n => simp [Decimal.text]

/-- The characters of an instruction: letters, a space, a dash and digits. -/
theorem toNat_of_mem_text {i : Instruction} (h : IsSpelled i) {c : Char}
    (hc : c ∈ i.text.toList) :
    97 ≤ c.toNat ∨ c.toNat = 32 ∨ c.toNat = 45 ∨ (48 ≤ c.toNat ∧ c.toNat ≤ 57) := by
  rw [toList_text, List.mem_append] at hc
  rcases hc with hc | hc
  · exact .inl (toNat_of_isMnemonicChar (h.letters c hc)).1
  · cases harg : i.argument with
    | none => simp [harg] at hc
    | some n =>
      rw [harg, Option.elim_some, List.mem_cons] at hc
      rcases hc with rfl | hc
      · exact .inr (.inl rfl)
      · exact .inr (.inr (toNat_of_mem_int hc))

/-- The text of an instruction is code from end to end, and what stands around it is not, if that is
blanks, and a comment after them. -/
theorem codeOf_text_margins {i : Instruction} (h : IsSpelled i) {lead trail comment : List Char}
    (hlead : ∀ c ∈ lead, Text.isBlank c = true) (htrail : ∀ c ∈ trail, Text.isBlank c = true)
    (hcomment : beforeComment comment = []) :
    codeOf (lead ++ (i.text.toList ++ (trail ++ comment))) = i.text.toList := by
  have hletter : ∀ c ∈ i.mnemonic.toList, 97 ≤ c.toNat ∧ c.toNat ≤ 122 :=
    fun c hc => toNat_of_isMnemonicChar (h.letters c hc)
  have hcode : ∀ c ∈ lead ++ (i.text.toList ++ trail), c ∉ markers := by
    intro c hc hmarker
    have hmarker := toNat_of_mem_markers hmarker
    rcases List.mem_append.mp hc with hc | hc
    · have := toNat_of_isBlank (hlead c hc)
      omega
    · rcases List.mem_append.mp hc with hc | hc
      · have := toNat_of_mem_text h hc
        omega
      · have := toNat_of_isBlank (htrail c hc)
        omega
  have htext : i.text.toList ≠ [] := by
    rw [toList_text]
    exact List.append_ne_nil_of_left_ne_nil h.ne_nil _
  have hline : lead ++ (i.text.toList ++ (trail ++ comment)) =
      (lead ++ (i.text.toList ++ trail)) ++ comment := by simp only [List.append_assoc]
  rw [codeOf, hline, beforeComment_append hcode, hcomment, List.append_nil]
  refine Text.trim_margins htext hlead htrail (fun c hc => ?_) (fun c hc => ?_)
  · rw [toList_text, List.head?_append_of_ne_nil _ h.ne_nil] at hc
    exact isBlank_eq_false (.inl (hletter c (List.mem_of_mem_head? hc)))
  · rw [toList_text] at hc
    cases harg : i.argument with
    | none =>
      rw [harg, Option.elim_none, List.append_nil] at hc
      exact isBlank_eq_false (.inl (hletter c (List.mem_of_getLast? hc)))
    | some n =>
      rw [harg, Option.elim_some, List.getLast?_append_of_ne_nil _ (by simp),
        List.getLast?_cons_of_ne_nil (int_ne_nil n)] at hc
      exact isBlank_eq_false (.inr (toNat_of_mem_int (List.mem_of_getLast? hc)))

/-- An instruction is read back from its text, also with blanks around it and a comment after
them. -/
theorem ofLine?_text_margins {i : Instruction} (h : IsSpelled i) {lead trail comment : List Char}
    (hlead : ∀ c ∈ lead, Text.isBlank c = true) (htrail : ∀ c ∈ trail, Text.isBlank c = true)
    (hcomment : beforeComment comment = []) :
    ofLine? (lead ++ (i.text.toList ++ (trail ++ comment))) =
      some { mnemonic := i.mnemonic, argument := i.argument } := by
  rw [ofLine?, codeOf_text_margins h hlead htrail hcomment, toList_text]
  cases i.argument with
  | none => simp [instruction?_letters h.ne_nil h.letters]
  | some n => simp [instruction?_number h.ne_nil h.letters n]

theorem ofLine?_text {i : Instruction} (h : IsSpelled i) :
    ofLine? i.text.toList = some { mnemonic := i.mnemonic, argument := i.argument } := by
  have hline := @ofLine?_text_margins i h [] [] [] (by simp) (by simp) rfl
  rwa [List.append_nil, List.append_nil, List.nil_append] at hline

/-! ## Many lines -/

theorem ofLinesFrom_append (n : Nat) (ls ls' : List (List Char)) :
    ofLinesFrom n (ls ++ ls') = ofLinesFrom n ls ++ ofLinesFrom (n + ls.length) ls' := by
  induction ls generalizing n with
  | nil => rfl
  | cons line ls ih =>
    have hcount : n + 1 + ls.length = n + (line :: ls).length := by
      rw [List.length_cons]
      omega
    rw [List.cons_append, ofLinesFrom, ofLinesFrom, ih, hcount]
    cases ofLine? line <;> rfl

theorem ofLinesFrom_eq_nil_iff {n : Nat} {ls : List (List Char)} :
    ofLinesFrom n ls = [] ↔ ∀ line ∈ ls, ofLine? line = none := by
  induction ls generalizing n with
  | nil => simp [ofLinesFrom]
  | cons line ls ih =>
    rw [ofLinesFrom, List.forall_mem_cons, ← ih (n := n + 1)]
    cases ofLine? line <;> simp

/-- An empty line at the end plays no part. -/
theorem ofLinesFrom_concat_nil (n : Nat) (ls : List (List Char)) :
    ofLinesFrom n (ls ++ [[]]) = ofLinesFrom n ls := by
  rw [ofLinesFrom_append]
  exact List.append_nil _

/-- The instructions of a text are those of its pieces. -/
theorem parse_eq_ofLines_pieces (text : List Char) :
    parse text = ofLines (Text.pieces '\n' (Text.unifyLineEnds text)) := by
  obtain ⟨blank, hpieces, hblank⟩ := Text.exists_pieces_eq_lines_append text
  have hnone : ofLinesFrom (1 + (Text.lines text).length) blank = [] :=
    ofLinesFrom_eq_nil_iff.mpr fun line hline => by
      rw [hblank line hline]
      rfl
  rw [parse, ofLines, ofLines, hpieces, ofLinesFrom_append, hnone, List.append_nil]

end Contour.Assembly
