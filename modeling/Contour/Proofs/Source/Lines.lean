import Contour.Proofs.Source
import Contour.Proofs.Text.Blank

/-!
# The lines of an outline and the lines of a text

What a line of a text adds to the outline depends on that line alone (`content?`): nothing, or an
indentation and a code. Each line of an outline comes from the line of the text with its number
(`content?_of_mem_scan`), and together they are the contents of all lines, in their order
(`contents?_of_scan`).

A line is weighed after its indentation is left out, and `weight?` weighs it after all blanks in
front are left out. `weight_eq_weight?_iff` says by how much the two differ: by the blanks with
which the code of the line starts.
-/

namespace Contour

namespace Outline

/-! ## One line -/

/-- What a line adds to the outline: its indentation and its code, or nothing if it is blank or all
comment. There is no answer if a string literal stays open. -/
def content? (raw : List Char) : Option (Option (Nat × List Char)) :=
  (withoutComment? raw).map fun code =>
    let (width, body) := indentAndCode 0 (Text.trimEnd code)
    if body.isEmpty then none else some (width, body)

/-- A significant line without its comment and the blanks at its end. -/
theorem exists_of_content? {raw code : List Char} {width : Nat}
    (h : content? raw = some (some (width, code))) :
    ∃ line, withoutComment? raw = some line ∧
      indentAndCode 0 (Text.trimEnd line) = (width, code) := by
  obtain ⟨line, hline, hcontent⟩ := Option.map_eq_some_iff.mp h
  refine ⟨line, hline, ?_⟩
  generalize indentAndCode 0 (Text.trimEnd line) = split at hcontent
  obtain ⟨width', body⟩ := split
  simp only [Option.ite_none_left_eq_some, Option.some.injEq] at hcontent
  exact hcontent.2

/-! ## All lines -/

variable {number : Nat} {levels : List Nat} {opens last : Bool} {raw : List Char}
  {raws : List (List Char)} {lines : List Line}

/-- What a line does depends on what it adds to the outline. -/
theorem linesFrom_cons (number : Nat) (levels : List Nat) (opens : Bool) (raw : List Char)
    (raws : List (List Char)) :
    linesFrom number levels opens (raw :: raws) =
      match content? raw with
      | none => .error ⟨number, .openString⟩
      | some none => linesFrom (number + 1) levels opens raws
      | some (some (indent, code)) =>
        match nest levels opens indent with
        | .error flaw => .error ⟨number, flaw⟩
        | .ok levels =>
          (linesFrom (number + 1) levels (opensBlock code) raws).map fun (more, last) =>
            (⟨number, indent, levels.length - 1, weight code, code⟩ :: more, last) := by
  rw [linesFrom, content?]
  cases withoutComment? raw with
  | none => rfl
  | some line =>
    simp only [Option.map_some]
    generalize indentAndCode 0 (Text.trimEnd line) = split
    obtain ⟨indent, code⟩ := split
    cases code.isEmpty with
    | true => rfl
    | false =>
      simp only [Bool.false_eq_true, if_false]
      cases nest levels opens indent with
      | error flaw => rfl
      | ok levels' =>
        dsimp only
        cases linesFrom (number + 1) levels' (opensBlock code) raws <;> rfl

/-- A line is passed over, or it is placed and the lines after it follow. -/
theorem linesFrom_cons_cases (h : linesFrom number levels opens (raw :: raws) = .ok (lines, last)) :
    (content? raw = some none ∧ linesFrom (number + 1) levels opens raws = .ok (lines, last)) ∨
      ∃ width code levels' more, content? raw = some (some (width, code)) ∧
        nest levels opens width = .ok levels' ∧
        linesFrom (number + 1) levels' (opensBlock code) raws = .ok (more, last) ∧
        lines = ⟨number, width, levels'.length - 1, weight code, code⟩ :: more := by
  rw [linesFrom_cons] at h
  cases hcontent : content? raw with
  | none =>
    rw [hcontent] at h
    cases h
  | some content =>
    rw [hcontent] at h
    cases content with
    | none => exact .inl ⟨rfl, h⟩
    | some content =>
      obtain ⟨width, code⟩ := content
      dsimp only at h
      cases hnest : nest levels opens width with
      | error flaw =>
        rw [hnest] at h
        cases h
      | ok levels' =>
        rw [hnest] at h
        dsimp only at h
        cases hmore : linesFrom (number + 1) levels' (opensBlock code) raws with
        | error e =>
          rw [hmore] at h
          cases h
        | ok found =>
          rw [hmore] at h
          cases h
          exact .inr ⟨width, code, levels', _, rfl, hnest, hmore, rfl⟩

/-- What lines add to the outline, if all string literals on them are closed. -/
def contents? : List (List Char) → Option (List (Nat × List Char))
  | [] => some []
  | raw :: raws => (content? raw).bind fun found => (contents? raws).map (found.toList ++ ·)

/-- The lines that are found are the contents of all lines. -/
theorem contents?_of_linesFrom (h : linesFrom number levels opens raws = .ok (lines, last)) :
    contents? raws = some (lines.map fun l => (l.indent, l.code)) := by
  induction raws generalizing number levels opens lines with
  | nil =>
    cases h
    rfl
  | cons raw raws ih =>
    obtain ⟨hcontent, hrest⟩ | ⟨width, code, levels', more, hcontent, -, hrest, rfl⟩ :=
      linesFrom_cons_cases h
    · rw [contents?, hcontent, ih hrest]
      rfl
    · rw [contents?, hcontent, ih hrest]
      rfl

/-- A line that is found comes from the line with its number, and its code is weighed. -/
theorem content?_of_mem_linesFrom (h : linesFrom number levels opens raws = .ok (lines, last))
    {l : Line} (hl : l ∈ lines) :
    l.weight = weight l.code ∧ ∃ k raw, l.number = number + k ∧ raws[k]? = some raw ∧
      content? raw = some (some (l.indent, l.code)) := by
  induction raws generalizing number levels opens lines with
  | nil =>
    cases h
    cases hl
  | cons raw raws ih =>
    -- A line further on has its place counted from this one.
    have hlater {levels : List Nat} {opens : Bool} {more : List Line}
        (h : linesFrom (number + 1) levels opens raws = .ok (more, last)) (hl : l ∈ more) :
        l.weight = weight l.code ∧ ∃ k raw', l.number = number + k ∧
          (raw :: raws)[k]? = some raw' ∧ content? raw' = some (some (l.indent, l.code)) := by
      obtain ⟨hweight, k, raw', hnumber, hraw, hcontent⟩ := ih h hl
      exact ⟨hweight, k + 1, raw', by omega, hraw, hcontent⟩
    obtain ⟨-, hrest⟩ | ⟨width, code, levels', more, hcontent, -, hrest, rfl⟩ :=
      linesFrom_cons_cases h
    · exact hlater hrest hl
    · rcases List.mem_cons.mp hl with rfl | hl
      · exact ⟨rfl, 0, raw, rfl, rfl, hcontent⟩
      · exact hlater hrest hl

/-! ## The outline of a text -/

theorem linesFrom_of_scan {text : List Char} (h : scan text = .ok lines) :
    ∃ last, linesFrom 1 [0] false (rawLines text) = .ok (lines, last) := by
  rw [scan] at h
  rw [rawLines]
  cases hlines : linesFrom 1 [0] false (Text.pieces '\n' (Text.unifyLineEnds text)) with
  | error e =>
    rw [hlines] at h
    cases h
  | ok found =>
    obtain ⟨lines', last⟩ := found
    rw [hlines] at h
    simp only [bind, Except.bind] at h
    split at h
    · split at h
      · cases h
      · cases h
        exact ⟨last, rfl⟩
    · rename_i hnone
      cases h
      rw [List.getLast?_eq_none_iff.mp hnone]
      exact ⟨last, rfl⟩

theorem contents?_of_scan {text : List Char} (h : scan text = .ok lines) :
    contents? (rawLines text) = some (lines.map fun l => (l.indent, l.code)) := by
  obtain ⟨last, hlines⟩ := linesFrom_of_scan h
  exact contents?_of_linesFrom hlines

theorem content?_of_mem_scan {text : List Char} (h : scan text = .ok lines) {l : Line}
    (hl : l ∈ lines) :
    l.weight = weight l.code ∧ 1 ≤ l.number ∧ ∃ raw, (rawLines text)[l.number - 1]? = some raw ∧
      content? raw = some (some (l.indent, l.code)) := by
  obtain ⟨last, hlines⟩ := linesFrom_of_scan h
  obtain ⟨hweight, k, raw, hnumber, hraw, hcontent⟩ := content?_of_mem_linesFrom hlines hl
  refine ⟨hweight, by omega, raw, ?_, hcontent⟩
  rw [hnumber, Nat.add_sub_cancel_left]
  exact hraw

/-! ## Weights -/

/-- The characters of an indentation. -/
def isIndent (c : Char) : Bool := c == ' ' || c == '\t' || c.toNat == 0x0c

theorem isBlank_of_isIndent {c : Char} (h : isIndent c = true) : Text.isBlank c = true := by
  simp only [isIndent, Bool.or_eq_true, beq_iff_eq] at h
  rcases h with (rfl | rfl) | h
  · decide
  · decide
  · simp [Text.isBlank, h]

/-- What is left out as indentation ends where another character stands. -/
theorem indentAndCode_eq_dropWhile (column : Nat) (s : List Char) :
    (indentAndCode column s).2 = s.dropWhile isIndent := by
  fun_induction indentAndCode column s with
  | case1 => rfl
  | case2 column rest ih => rw [ih, List.dropWhile_cons_of_pos (by decide)]
  | case3 column rest _ ih => rw [ih, List.dropWhile_cons_of_pos (by decide)]
  | case4 column c rest hspace htab hfeed ih =>
    rw [ih, List.dropWhile_cons_of_pos (by simp [isIndent, hfeed])]
  | case5 column c rest hspace htab hfeed =>
    rw [List.dropWhile_cons_of_neg (by simp [isIndent, hspace, htab, hfeed])]

theorem trim_eq_dropWhile_trimEnd (s : List Char) :
    Text.trim s = (Text.trimEnd s).dropWhile Text.isBlank := by
  obtain ⟨trail, hs, htrail⟩ := Text.exists_eq_trimEnd_append s
  have hsplit := List.takeWhile_append_dropWhile (p := Text.isBlank) (l := Text.trimEnd s)
  refine Text.trim_eq_iff.mpr ⟨⟨(Text.trimEnd s).takeWhile Text.isBlank, trail, ?_,
    fun c hc => List.mem_takeWhile_imp hc, htrail⟩,
    fun c hc => Text.not_isBlank_of_mem_head?_dropWhile hc, fun c hc => ?_⟩
  · rw [← List.append_assoc, hsplit]
    exact hs
  · refine Text.not_isBlank_of_mem_getLast?_trimEnd (s := s) ?_
    rw [← hsplit]
    exact List.mem_getLast?_append_of_mem_getLast? hc

/-- Leaving out an indentation first makes no difference to leaving out blanks. -/
theorem dropWhile_isBlank_dropWhile_isIndent (s : List Char) :
    (s.dropWhile isIndent).dropWhile Text.isBlank = s.dropWhile Text.isBlank := by
  have hindent : ∀ c ∈ s.takeWhile isIndent, Text.isBlank c = true :=
    fun c hc => isBlank_of_isIndent (List.mem_takeWhile_imp hc)
  rw [← List.dropWhile_append_of_pos hindent, List.takeWhile_append_dropWhile]

theorem weight_eq_add (code : List Char) :
    weight code = weight (code.dropWhile Text.isBlank) + (code.takeWhile Text.isBlank).length := by
  have hfront : (code.takeWhile Text.isBlank).countP Text.isBlank =
      (code.takeWhile Text.isBlank).length :=
    List.countP_eq_length.mpr fun c hc => List.mem_takeWhile_imp hc
  rw [← hfront, weight, weight, Nat.add_comm, ← List.countP_append,
    List.takeWhile_append_dropWhile]

/-- The weight of the code of a line is that of the line, and the blanks with which it starts. -/
theorem exists_weight?_of_content? {raw code : List Char} {width : Nat}
    (h : content? raw = some (some (width, code))) :
    ∃ w, weight? raw = some w ∧ weight code = w + (code.takeWhile Text.isBlank).length := by
  obtain ⟨line, hline, hsplit⟩ := exists_of_content? h
  have hcode : code = (Text.trimEnd line).dropWhile isIndent := by
    rw [← indentAndCode_eq_dropWhile 0, hsplit]
  refine ⟨weight (Text.trim line), by rw [weight?, hline]; rfl, ?_⟩
  rw [trim_eq_dropWhile_trimEnd, ← dropWhile_isBlank_dropWhile_isIndent, ← hcode]
  exact weight_eq_add code

theorem not_isIndent_of_content? {raw code : List Char} {width : Nat}
    (h : content? raw = some (some (width, code))) : ∀ c ∈ code.head?, isIndent c = false := by
  obtain ⟨line, -, hsplit⟩ := exists_of_content? h
  have hcode : code = (Text.trimEnd line).dropWhile isIndent := by
    rw [← indentAndCode_eq_dropWhile 0, hsplit]
  intro c hc
  have hhead := List.head?_dropWhile_not isIndent (Text.trimEnd line)
  rw [← hcode, Option.mem_def.mp hc] at hhead
  exact hhead

theorem length_takeWhile_eq_zero_iff {p : Char → Bool} {s : List Char} :
    (s.takeWhile p).length = 0 ↔ ∀ c ∈ s.head?, p c = false := by
  cases s with
  | nil => simp
  | cons c s => by_cases hc : p c = true <;> simp [hc]

end Outline

namespace Source

open Outline (rawLines isIndent weight?)

/-- Each line of an outline comes from the line of the text with its number, and that line has a
weight. The two weights differ by the number of blanks with which the code of the line starts, so
that they are equal exactly if the code starts with another character. It never starts with a
character of an indentation: the blanks are others. The outline of a text in the language is no
other one. -/
theorem weight_eq_weight?_iff (text : List Char) :
    (∀ lines, scan text = .ok lines → Outline.scan text = .ok lines) ∧
    ∀ lines, Outline.scan text = .ok lines → ∀ l ∈ lines, 1 ≤ l.number ∧
      ∃ raw w, (rawLines text)[l.number - 1]? = some raw ∧ weight? raw = some w ∧
        l.weight = w + (l.code.takeWhile Text.isBlank).length ∧
        (l.weight = w ↔ ∀ c ∈ l.code.head?, Text.isBlank c = false) ∧
        ∀ c ∈ l.code.head?, isIndent c = false := by
  refine ⟨fun lines => scan_of_eq_ok, fun lines h l hl => ?_⟩
  obtain ⟨hweight, hnumber, raw, hraw, hcontent⟩ := Outline.content?_of_mem_scan h hl
  obtain ⟨w, hw, hsum⟩ := Outline.exists_weight?_of_content? hcontent
  rw [← hweight] at hsum
  refine ⟨hnumber, raw, w, hraw, hw, hsum, ?_, Outline.not_isIndent_of_content? hcontent⟩
  rw [← Outline.length_takeWhile_eq_zero_iff]
  omega

/-- A literal over three lines, the second of which starts with a no-break space. That line weighs
more in the outline than alone. -/
theorem weight_eq_weight?_iff_no_break_space :
    let text := "x = \"\"\"a\"\n\u00a0y\n\"b\"\"\"".toList
    let second : Outline.Line := ⟨2, 0, 0, 1, "\u00a0y".toList⟩
    (∃ lines, Outline.scan text = .ok lines ∧ second ∈ lines) ∧
      ∃ w, (rawLines text)[1]?.bind weight? = some w ∧ second.weight = w + 1 := by
  intro text second
  have hscan : Outline.scan text =
      .ok [⟨1, 0, 0, 2, "x = \"\"\"a\"".toList⟩, second, ⟨3, 0, 0, 0, "\"b\"\"\"".toList⟩] := by
    decide +kernel
  have hmem : second ∈ [⟨1, 0, 0, 2, "x = \"\"\"a\"".toList⟩, second,
      ⟨3, 0, 0, 0, "\"b\"\"\"".toList⟩] := by
    decide
  obtain ⟨-, raw, w, hraw, hw, hsum, -⟩ := (weight_eq_weight?_iff text).2 _ hscan second hmem
  have hsecond : (rawLines text)[1]? = some raw := hraw
  exact ⟨⟨_, hscan, hmem⟩, w, by rw [hsecond]; exact hw, hsum⟩

end Source

end Contour
