import Contour.Proofs.Assembly

/-!
# Lines of assembly taken apart

A line that holds an instruction with an argument is blanks, letters, a gap, a number, blanks and
perhaps a comment, one after the other (`exists_of_ofLine?`). The kinds of characters are told apart
by their code points, so that each part ends where the next one starts. Cutting out the number
(`withoutArgument`) leaves a line with the same mnemonic and no argument.
-/

namespace Contour.Assembly

/-! ## Kinds of characters -/

/-- The characters of a number that can be read. -/
def isNumeral (c : Char) : Bool := c.isDigit || c == '-' || c == '+'

theorem toNat_of_isNumeral {c : Char} (h : isNumeral c = true) :
    c.toNat = 43 ∨ c.toNat = 45 ∨ (48 ≤ c.toNat ∧ c.toNat ≤ 57) := by
  simp only [isNumeral, Bool.or_eq_true, beq_iff_eq] at h
  rcases h with (h | rfl) | rfl
  · exact .inr (.inr (toNat_of_isDigit h))
  · exact .inr (.inl rfl)
  · exact .inl rfl

theorem toNat_of_isGap {c : Char} (h : isGap c = true) : c.toNat ≤ 32 := by
  simp only [isGap, Bool.or_eq_true, beq_iff_eq] at h
  rcases h with (((rfl | rfl) | h) | rfl) | rfl
  · decide
  · decide
  · omega
  · decide
  · decide

/-! ## Comments -/

/-- What is cut off a line starts with a marker, unless it is nothing. -/
theorem exists_comment (line : List Char) :
    ∃ comment, line = beforeComment line ++ comment ∧ beforeComment comment = [] ∧
      ∀ c ∈ comment.head?, c ∈ markers := by
  induction line with
  | nil => exact ⟨[], rfl, rfl, by simp⟩
  | cons c line ih =>
    by_cases hc : startsComment (c :: line) = true
    · refine ⟨c :: line, ?_, ?_, ?_⟩
      · rw [beforeComment, if_pos hc, List.nil_append]
      · rw [beforeComment, if_pos hc]
      · rintro d ⟨⟩
        exact mem_markers_of_startsComment hc
    · obtain ⟨comment, hline, hcomment⟩ := ih
      refine ⟨comment, ?_, hcomment⟩
      rw [beforeComment, if_neg hc, List.cons_append, ← hline]

/-! ## Numbers -/

theorem isDigit_of_mapM {s : List Char} {ds : List Nat} (h : s.mapM Decimal.digit? = some ds) :
    ∀ c ∈ s, c.isDigit = true := by
  induction s generalizing ds with
  | nil => simp
  | cons c s ih =>
    rw [List.mapM_cons] at h
    obtain ⟨d, hd, h⟩ := Option.bind_eq_some_iff.mp h
    obtain ⟨ds', hds, -⟩ := Option.bind_eq_some_iff.mp h
    rw [Decimal.digit?, Option.ite_none_right_eq_some] at hd
    exact List.forall_mem_cons.mpr ⟨hd.1, ih hds⟩

theorem isDigit_of_nat? {s : List Char} {n : Nat} (h : Decimal.nat? s = some n) :
    s ≠ [] ∧ ∀ c ∈ s, c.isDigit = true := by
  rw [Decimal.nat?, Option.ite_none_left_eq_some] at h
  obtain ⟨hne, h⟩ := h
  obtain ⟨ds, hds, -⟩ := Option.map_eq_some_iff.mp h
  exact ⟨by simpa using hne, isDigit_of_mapM hds⟩

theorem isNumeral_of_int? {s : List Char} {n : Int} (h : Decimal.int? s = some n) :
    s ≠ [] ∧ ∀ c ∈ s, isNumeral c = true := by
  have hdigits {t : List Char} {m : Nat} (ht : Decimal.nat? t = some m) :
      ∀ c ∈ t, isNumeral c = true := fun c hc => by
    simp [isNumeral, (isDigit_of_nat? ht).2 c hc]
  unfold Decimal.int? at h
  split at h <;> obtain ⟨_, h, -⟩ := Option.map_eq_some_iff.mp h <;>
    obtain ⟨m, hm, -⟩ := Option.bind_eq_some_iff.mp h
  · exact ⟨by simp, List.forall_mem_cons.mpr ⟨by decide, hdigits hm⟩⟩
  · exact ⟨by simp, List.forall_mem_cons.mpr ⟨by decide, hdigits hm⟩⟩
  · exact ⟨(isDigit_of_nat? hm).1, hdigits hm⟩

/-! ## Instructions -/

/-- The mnemonic of an instruction is made of letters. -/
theorem isSpelled_of_ofLine? {line : List Char} {i : Instruction} (h : ofLine? line = some i) :
    IsSpelled i := by
  have hall : ∀ c ∈ (codeOf line).takeWhile isMnemonicChar, isMnemonicChar c = true :=
    fun c hc => List.mem_takeWhile_imp hc
  simp only [ofLine?, instruction?, Option.ite_none_left_eq_some] at h
  obtain ⟨hne, h⟩ := h
  rw [List.isEmpty_iff] at hne
  split at h
  · cases h
    exact ⟨by rwa [String.toList_ofList], by rwa [String.toList_ofList]⟩
  · obtain ⟨n, -, rfl⟩ := Option.map_eq_some_iff.mp h
    exact ⟨by rwa [String.toList_ofList], by rwa [String.toList_ofList]⟩

theorem isSpelled_of_mem_ofLinesFrom {n : Nat} {ls : List (List Char)} {i : Instruction}
    (h : i ∈ ofLinesFrom n ls) : IsSpelled i := by
  induction ls generalizing n with
  | nil => cases h
  | cons line ls ih =>
    rw [ofLinesFrom] at h
    cases hline : ofLine? line with
    | none =>
      rw [hline] at h
      exact ih h
    | some j =>
      rw [hline] at h
      rcases List.mem_cons.mp h with rfl | h
      · obtain ⟨hne, hletters⟩ := isSpelled_of_ofLine? hline
        exact ⟨hne, hletters⟩
      · exact ih h

/-- An instruction with an argument is letters, a gap and a number. -/
theorem exists_of_instruction? {code : List Char} {i : Instruction} {n : Int}
    (h : instruction? code = some i) (hn : i.argument = some n) :
    ∃ letters gap number, code = letters ++ (gap ++ number) ∧ letters ≠ [] ∧
      (∀ c ∈ letters, isMnemonicChar c = true) ∧ (∀ c ∈ gap, isGap c = true) ∧
      Decimal.int? number = some n ∧
      i = { mnemonic := String.ofList letters, argument := some n } := by
  simp only [instruction?, Option.ite_none_left_eq_some] at h
  obtain ⟨hne, h⟩ := h
  split at h
  · cases h
    cases hn
  · obtain ⟨m, hm, rfl⟩ := Option.map_eq_some_iff.mp h
    cases hn
    refine ⟨code.takeWhile isMnemonicChar, (code.dropWhile isMnemonicChar).takeWhile isGap,
      (code.dropWhile isMnemonicChar).dropWhile isGap, ?_, by simpa using hne,
      fun c hc => List.mem_takeWhile_imp hc, fun c hc => List.mem_takeWhile_imp hc, hm, rfl⟩
    rw [List.takeWhile_append_dropWhile, List.takeWhile_append_dropWhile]

/-- A line with an argument: between blanks there are letters, a gap and a number, and then there
may be a comment. -/
theorem exists_of_ofLine? {line : List Char} {i : Instruction} {n : Int}
    (h : ofLine? line = some i) (hn : i.argument = some n) :
    ∃ lead letters gap number trail comment,
      line = lead ++ (letters ++ (gap ++ (number ++ (trail ++ comment)))) ∧
      (∀ c ∈ lead, Text.isBlank c = true) ∧ letters ≠ [] ∧
      (∀ c ∈ letters, isMnemonicChar c = true) ∧ (∀ c ∈ gap, isGap c = true) ∧
      Decimal.int? number = some n ∧ (∀ c ∈ trail, Text.isBlank c = true) ∧
      beforeComment comment = [] ∧ (∀ c ∈ comment.head?, c ∈ markers) ∧
      i = { mnemonic := String.ofList letters, argument := some n } := by
  obtain ⟨comment, hline, hcomment, hmarker⟩ := exists_comment line
  obtain ⟨lead, trail, hcode, hlead, htrail⟩ := Text.exists_margins (beforeComment line)
  obtain ⟨letters, gap, number, hparts, hne, hletters, hgap, hnumber, hi⟩ :=
    exists_of_instruction? h hn
  refine ⟨lead, letters, gap, number, trail, comment, ?_, hlead, hne, hletters, hgap, hnumber,
    htrail, hcomment, hmarker, hi⟩
  rw [codeOf] at hparts
  rw [hparts] at hcode
  rw [hcode] at hline
  simpa only [List.append_assoc] using hline

/-! ## Cutting out the argument -/

/-- A line without the number after its mnemonic. All else stays: blanks and comment too. -/
def withoutArgument (line : List Char) : List Char :=
  let body := line.dropWhile Text.isBlank
  let rest := body.dropWhile isMnemonicChar
  line.takeWhile Text.isBlank ++ (body.takeWhile isMnemonicChar ++
    (rest.takeWhile isGap ++ (rest.dropWhile isGap).dropWhile isNumeral))

theorem withoutArgument_eq {lead letters gap number trail comment : List Char} {n : Int}
    (hlead : ∀ c ∈ lead, Text.isBlank c = true) (hne : letters ≠ [])
    (hletters : ∀ c ∈ letters, isMnemonicChar c = true) (hgap : ∀ c ∈ gap, isGap c = true)
    (hnumber : Decimal.int? number = some n) (htrail : ∀ c ∈ trail, Text.isBlank c = true)
    (hmarker : ∀ c ∈ comment.head?, c ∈ markers) :
    withoutArgument (lead ++ (letters ++ (gap ++ (number ++ (trail ++ comment))))) =
      lead ++ (letters ++ (gap ++ (trail ++ comment))) := by
  obtain ⟨hnumberNe, hnumeral⟩ := isNumeral_of_int? hnumber
  obtain ⟨c, number, rfl⟩ := List.exists_cons_of_ne_nil hnumberNe
  obtain ⟨l, letters, rfl⟩ := List.exists_cons_of_ne_nil hne
  have hc := toNat_of_isNumeral (hnumeral c List.mem_cons_self)
  have hl := toNat_of_isMnemonicChar (hletters l List.mem_cons_self)
  -- Each part is followed by a character of another kind.
  have hafterTrail : ∀ d ∈ (trail ++ comment).head?, isNumeral d = false := by
    intro d hd
    refine Bool.eq_false_iff.mpr fun h => ?_
    have hnumeral := toNat_of_isNumeral h
    cases trail with
    | nil =>
      have := toNat_of_mem_markers (hmarker d hd)
      omega
    | cons b trail =>
      cases hd
      have := toNat_of_isBlank (htrail d List.mem_cons_self)
      omega
  have hafterGap : ∀ d ∈ ((c :: number) ++ (trail ++ comment)).head?, isGap d = false := by
    rintro d ⟨⟩
    refine Bool.eq_false_iff.mpr fun h => ?_
    have := toNat_of_isGap h
    omega
  have hafterLetters : ∀ d ∈ (gap ++ ((c :: number) ++ (trail ++ comment))).head?,
      isMnemonicChar d = false := by
    intro d hd
    refine Bool.eq_false_iff.mpr fun h => ?_
    have hletter := toNat_of_isMnemonicChar h
    cases gap with
    | nil =>
      cases hd
      omega
    | cons g gap =>
      cases hd
      have := toNat_of_isGap (hgap d List.mem_cons_self)
      omega
  have hafterLead : ∀ d ∈ ((l :: letters) ++ (gap ++ ((c :: number) ++ (trail ++ comment)))).head?,
      Text.isBlank d = false := by
    rintro d ⟨⟩
    exact isBlank_eq_false (.inl hl)
  obtain ⟨hleads, hbody⟩ := Text.takeWhile_dropWhile_append hlead hafterLead
  obtain ⟨hword, hrest⟩ := Text.takeWhile_dropWhile_append hletters hafterLetters
  obtain ⟨hgaps, hnumbers⟩ := Text.takeWhile_dropWhile_append hgap hafterGap
  have htail := (Text.takeWhile_dropWhile_append hnumeral hafterTrail).2
  simp only [withoutArgument, hleads, hbody, hword, hrest, hgaps, hnumbers, htail]

/-- Without its argument a line is what stands before and after the number, and it still has its
mnemonic. -/
theorem ofLine?_withoutArgument {line : List Char} {i : Instruction} {n : Int}
    (h : ofLine? line = some i) (hn : i.argument = some n) :
    ofLine? (withoutArgument line) = some { i with argument := none } ∧
      ∃ before number after, line = before ++ (number ++ after) ∧
        Decimal.int? number = some n ∧ withoutArgument line = before ++ after := by
  obtain ⟨lead, letters, gap, number, trail, comment, rfl, hlead, hne, hletters, hgap, hnumber,
    htrail, hcomment, hmarker, rfl⟩ := exists_of_ofLine? h hn
  rw [withoutArgument_eq hlead hne hletters hgap hnumber htrail hmarker]
  have hblank : ∀ c ∈ gap ++ trail, Text.isBlank c = true := by
    intro c hc
    rcases List.mem_append.mp hc with hc | hc
    · exact isBlank_of_isGap (hgap c hc)
    · exact htrail c hc
  have hplain : ∀ c ∈ lead ++ (letters ++ (gap ++ trail)), c ∉ markers := by
    intro c hc hmark
    have hcode := toNat_of_mem_markers hmark
    rcases List.mem_append.mp hc with hc | hc
    · have := toNat_of_isBlank (hlead c hc)
      omega
    · rcases List.mem_append.mp hc with hc | hc
      · have := toNat_of_isMnemonicChar (hletters c hc)
        omega
      · have := toNat_of_isBlank (hblank c hc)
        omega
  have hcode : beforeComment (lead ++ (letters ++ (gap ++ (trail ++ comment)))) =
      lead ++ (letters ++ (gap ++ trail)) := by
    have happend := beforeComment_append hplain comment
    simpa only [List.append_assoc, hcomment, List.append_nil] using happend
  have hletter : ∀ c ∈ letters, Text.isBlank c = false := fun c hc =>
    isBlank_eq_false (.inl (toNat_of_isMnemonicChar (hletters c hc)))
  refine ⟨?_, ?_⟩
  · rw [ofLine?, codeOf, hcode, Text.trim_margins hne hlead hblank
      (fun c hc => hletter c (List.mem_of_mem_head? hc))
      (fun c hc => hletter c (List.mem_of_getLast? hc)),
      instruction?_letters hne hletters]
  · exact ⟨lead ++ (letters ++ gap), number, trail ++ comment, by simp only [List.append_assoc],
      hnumber, by simp only [List.append_assoc]⟩

end Contour.Assembly
