import Contour.Proofs.Source.Retouch

/-!
# Looking up in an outline

Scanning keeps the widths of the open blocks on a stack and looks at its top before each significant
line. The stack is never empty then: the width zero of the outermost block stays on it
(`linesFrom?_eq`), so that scanning with lookups that can fail is the same as scanning (`scan?_eq`).

A flaw that is found is on a line of the text which is not blank (`exists_line_of_scan_error`), and
so is a line of the outline (`exists_line_of_mem_scan`). Both are counted among the pieces of the
text, of which the lines leave out only some that are empty (`exists_line`).
-/

namespace Contour

namespace Outline

/-! ## The stack -/

/-- Takes the widths greater than `indent` off the top of a stack, but not the last one. -/
def unwind (indent : Nat) : List Nat → List Nat
  | w :: v :: rest => if indent < w then unwind indent (v :: rest) else w :: v :: rest
  | levels => levels

/-- `nest` with lookups: there is no result if the top of an empty stack is asked for. -/
def nest? (levels : List Nat) (opens : Bool) (indent : Nat) : Option (Except Flaw (List Nat)) := do
  let top ← levels.head?
  if top < indent then
    some (if opens then .ok (indent :: levels) else .error .unexpectedIndent)
  else if opens then some (.error .missingBlock)
  else if indent < top then
    let rest := unwind indent levels
    let top ← rest.head?
    some (if top = indent then .ok rest else .error .strayUnindent)
  else some (.ok levels)

/-- `linesFrom` with lookups. -/
def linesFrom? (number : Nat) (levels : List Nat) (opens : Bool) :
    List (List Char) → Option (Except Error (List Line × Bool))
  | [] => some (.ok ([], opens))
  | raw :: rest =>
    match content? raw with
    | none => some (.error ⟨number, .openString⟩)
    | some none => linesFrom? (number + 1) levels opens rest
    | some (some (indent, code)) => do
      match ← nest? levels opens indent with
      | .error flaw => some (.error ⟨number, flaw⟩)
      | .ok levels =>
        let found ← linesFrom? (number + 1) levels (opensBlock code) rest
        some (found.map fun (more, last) =>
          (⟨number, indent, levels.length - 1, weight code, code⟩ :: more, last))

/-- `scan` with lookups. -/
def scan? (text : List Char) : Option (Except Error (List Line)) :=
  (linesFrom? 1 [0] false (rawLines text)).map fun found => do
    let (lines, opens) ← found
    match lines.getLast? with
    | some last => if opens then .error ⟨last.number, .missingBlock⟩ else .ok lines
    | none => .ok []

/-- With a zero on the stack, the last width need not be spared. -/
theorem unwind_eq {levels : List Nat} (h0 : 0 ∈ levels) (indent : Nat) :
    unwind indent levels = levels.dropWhile (indent < ·) := by
  fun_induction unwind indent levels with
  | case1 w v rest hlt ih =>
    have hrest : 0 ∈ v :: rest := by
      rcases List.mem_cons.mp h0 with rfl | hrest
      · exact absurd hlt (Nat.not_lt_zero indent)
      · exact hrest
    rw [ih hrest, List.dropWhile_cons (x := w), if_pos (decide_eq_true hlt)]
  | case2 w v rest hlt => exact (List.dropWhile_cons_of_neg (by simpa using hlt)).symm
  | case3 levels hshort =>
    cases levels with
    | nil => rfl
    | cons w rest =>
      cases rest with
      | nil =>
        obtain rfl := List.mem_singleton.mp h0
        rw [List.dropWhile_cons_of_neg (by simp)]
      | cons v rest => exact absurd rfl (hshort w v rest)

/-- The top of a stack with a zero on it can be looked up. -/
theorem nest?_eq {levels : List Nat} (h0 : 0 ∈ levels) (opens : Bool) (indent : Nat) :
    nest? levels opens indent = some (nest levels opens indent) := by
  obtain ⟨top, rest, rfl⟩ := List.exists_cons_of_ne_nil (List.ne_nil_of_mem h0)
  unfold nest? nest
  show (if top < indent then _ else _) = _
  rw [List.headD_cons]
  by_cases hdeeper : top < indent
  · rw [if_pos hdeeper, if_pos hdeeper]
  · rw [if_neg hdeeper, if_neg hdeeper]
    cases opens with
    | true => rfl
    | false =>
      by_cases hless : indent < top
      · have hmem := mem_dropWhile_of_zero h0 indent
        obtain ⟨w, left, hdrop⟩ := List.exists_cons_of_ne_nil (List.ne_nil_of_mem hmem)
        simp only [Bool.false_eq_true, if_false, if_pos hless, unwind_eq h0, hdrop]
        rfl
      · have heq : top = indent := by omega
        simp [heq]

/-- At every significant line the stack has a top. -/
theorem linesFrom?_eq {levels : List Nat} (h0 : 0 ∈ levels) (number : Nat) (opens : Bool)
    (raws : List (List Char)) :
    linesFrom? number levels opens raws = some (linesFrom number levels opens raws) := by
  induction raws generalizing number levels opens with
  | nil => rfl
  | cons raw raws ih =>
    rw [linesFrom?, linesFrom_cons]
    cases content? raw with
    | none => rfl
    | some content =>
      cases content with
      | none => exact ih h0 (number + 1) opens
      | some content =>
        obtain ⟨indent, code⟩ := content
        dsimp only
        rw [nest?_eq h0]
        cases hnest : nest levels opens indent with
        | error flaw => rfl
        | ok levels' =>
          -- The zero is still on the stack for the lines after this one.
          have hrest := ih (mem_of_nest h0 hnest) (number + 1) (opensBlock code)
          show (linesFrom? (number + 1) levels' (opensBlock code) raws).bind _ = _
          rw [hrest]
          rfl

theorem scan?_eq (text : List Char) : scan? text = some (scan text) := by
  rw [scan?, linesFrom?_eq List.mem_cons_self]
  rfl

/-! ## Flaws -/

/-- A blank line adds nothing to the outline. -/
theorem content?_of_isBlank {raw : List Char} (h : ∀ c ∈ raw, Text.isBlank c = true) :
    content? raw = some none := by
  have hplain : withoutComment? raw = some raw :=
    withoutComment?_eq_some_iff.mpr ⟨isPlain_of_isBlank h, .inl rfl⟩
  have htrim : Text.trimEnd raw = [] := Text.trimEnd_append h []
  rw [content?, hplain, Option.map_some, htrim]
  rfl

/-- A line that adds something to the outline, or has a string literal that stays open, is not
blank. -/
theorem exists_not_isBlank {raw : List Char} (h : content? raw ≠ some none) :
    ∃ c ∈ raw, Text.isBlank c = false := by
  by_contra hnone
  refine h (content?_of_isBlank fun c hc => ?_)
  cases hblank : Text.isBlank c with
  | true => rfl
  | false => exact absurd ⟨c, hc, hblank⟩ hnone

theorem content?_of_linesFrom_error {number : Nat} {levels : List Nat} {opens : Bool}
    {raws : List (List Char)} {e : Error} (h : linesFrom number levels opens raws = .error e) :
    ∃ k raw, e.line = number + k ∧ raws[k]? = some raw ∧ content? raw ≠ some none := by
  induction raws generalizing number levels opens with
  | nil => cases h
  | cons raw raws ih =>
    -- A line further on has its place counted from this one.
    have hlater {levels : List Nat} {opens : Bool}
        (h : linesFrom (number + 1) levels opens raws = .error e) :
        ∃ k raw', e.line = number + k ∧ (raw :: raws)[k]? = some raw' ∧
          content? raw' ≠ some none := by
      obtain ⟨k, raw', hline, hraw, hcontent⟩ := ih h
      exact ⟨k + 1, raw', by omega, hraw, hcontent⟩
    rw [linesFrom_cons] at h
    cases hcontent : content? raw with
    | none =>
      rw [hcontent] at h
      cases h
      exact ⟨0, raw, rfl, rfl, by rw [hcontent]; nofun⟩
    | some content =>
      rw [hcontent] at h
      cases content with
      | none => exact hlater h
      | some content =>
        obtain ⟨indent, code⟩ := content
        dsimp only at h
        cases hnest : nest levels opens indent with
        | error flaw =>
          rw [hnest] at h
          cases h
          exact ⟨0, raw, rfl, rfl, by rw [hcontent]; nofun⟩
        | ok levels' =>
          rw [hnest] at h
          dsimp only at h
          cases hmore : linesFrom (number + 1) levels' (opensBlock code) raws with
          | error e' =>
            rw [hmore] at h
            cases h
            exact hlater hmore
          | ok found =>
            rw [hmore] at h
            cases h

/-- A line that is not blank has the same place among the pieces of a text and among its lines. -/
theorem exists_line {text raw : List Char} {n k : Nat} (hn : n = 1 + k)
    (hraw : (rawLines text)[k]? = some raw) (hcontent : content? raw ≠ some none) :
    1 ≤ n ∧ ∃ line, (Text.lines text)[n - 1]? = some line ∧ ∃ c ∈ line, Text.isBlank c = false := by
  obtain ⟨blank, hpieces, hblank⟩ := Text.exists_pieces_eq_lines_append text
  rw [rawLines, hpieces] at hraw
  rw [hn, Nat.add_sub_cancel_left]
  refine ⟨Nat.le_add_right 1 k, raw, ?_, exists_not_isBlank hcontent⟩
  by_cases hk : k < (Text.lines text).length
  · rwa [List.getElem?_append_left hk] at hraw
  · -- The pieces that are left out are empty.
    rw [List.getElem?_append_right (Nat.le_of_not_lt hk)] at hraw
    rw [hblank raw (List.mem_of_getElem? hraw)] at hcontent
    exact absurd rfl hcontent

theorem exists_line_of_mem_scan {text : List Char} {lines : List Line} (h : scan text = .ok lines)
    {l : Line} (hl : l ∈ lines) :
    1 ≤ l.number ∧ ∃ line, (Text.lines text)[l.number - 1]? = some line ∧
      ∃ c ∈ line, Text.isBlank c = false := by
  obtain ⟨last, hlines⟩ := linesFrom_of_scan h
  obtain ⟨-, k, raw, hnumber, hraw, hcontent⟩ := content?_of_mem_linesFrom hlines hl
  exact exists_line hnumber hraw (by rw [hcontent]; nofun)

/-- A flaw is on a line of the text that is not blank. -/
theorem exists_line_of_scan_error {text : List Char} {e : Error} (h : scan text = .error e) :
    1 ≤ e.line ∧ ∃ line, (Text.lines text)[e.line - 1]? = some line ∧
      ∃ c ∈ line, Text.isBlank c = false := by
  have hscan : scan text = (linesFrom 1 [0] false (rawLines text)).bind fun found =>
      match found.1.getLast? with
      | some last => if found.2 then .error ⟨last.number, .missingBlock⟩ else .ok found.1
      | none => .ok [] := rfl
  rw [hscan] at h
  cases hlines : linesFrom 1 [0] false (rawLines text) with
  | error e' =>
    rw [hlines] at h
    cases h
    obtain ⟨k, raw, hline, hraw, hcontent⟩ := content?_of_linesFrom_error hlines
    exact exists_line hline hraw hcontent
  | ok found =>
    obtain ⟨lines, opens⟩ := found
    rw [hlines] at h
    cases hlast : lines.getLast? with
    | none => simp [Except.bind, hlast] at h
    | some last =>
      -- The flaw is that the last significant line opens a block.
      cases opens with
      | false => simp [Except.bind, hlast] at h
      | true =>
        obtain rfl : ⟨last.number, .missingBlock⟩ = e := by simpa [Except.bind, hlast] using h
        obtain ⟨-, k, raw, hnumber, hraw, hcontent⟩ :=
          content?_of_mem_linesFrom hlines (List.mem_of_getLast? hlast)
        exact exists_line hnumber hraw (by rw [hcontent]; nofun)

end Outline

end Contour
