import Contour.Text.Lines
import Mathlib.Data.List.Basic

/-!
# Texts cut into lines

Pieces on the two sides of a separator are cut independently (`pieces_append_separator`), so that a
text made of lines is cut into these lines again (`pieces_flatMap_append`). Line ends of the other
kind do not move a cut: they are unified on both sides of any place that is not inside one
(`unifyLineEnds_append`).

The lines of a text are its pieces, less the empty one that a line end at the very end leaves
(`exists_pieces_eq_lines_append`).
-/

namespace Contour.Text

/-! ## Pieces -/

theorem pieces_ne_nil (separator : Char) (s : List Char) : pieces separator s ≠ [] := by
  cases s with
  | nil => simp [pieces]
  | cons c s =>
    rw [pieces]
    split
    · simp
    · split <;> simp

/-- Pieces on both sides of a separator. -/
theorem pieces_append_separator (separator : Char) (s t : List Char) :
    pieces separator (s ++ separator :: t) = pieces separator s ++ pieces separator t := by
  induction s with
  | nil => simp [pieces]
  | cons c s ih =>
    rw [List.cons_append, pieces, pieces]
    by_cases hc : c = separator
    · rw [if_pos hc, if_pos hc, ih, List.cons_append]
    · rw [if_neg hc, if_neg hc, ih]
      cases hs : pieces separator s with
      | nil => exact absurd hs (pieces_ne_nil separator s)
      | cons piece more => rfl

/-- What has no separator is part of one piece. -/
theorem pieces_append_of_not_mem {separator : Char} {s : List Char} (h : separator ∉ s)
    (t : List Char) :
    pieces separator (s ++ t) = (pieces separator t).modifyHead (s ++ ·) := by
  induction s with
  | nil => cases hpieces : pieces separator t <;> simp [hpieces]
  | cons c s ih =>
    rw [List.mem_cons, not_or] at h
    rw [List.cons_append, pieces, if_neg (Ne.symm h.1), ih h.2]
    cases hpieces : pieces separator t with
    | nil => exact absurd hpieces (pieces_ne_nil separator t)
    | cons piece more => rfl

theorem pieces_eq_singleton {separator : Char} {s : List Char} (h : separator ∉ s) :
    pieces separator s = [s] := by
  simpa [pieces] using pieces_append_of_not_mem h []

/-- No piece has a separator in it. -/
theorem notMem_of_mem_pieces {separator : Char} {s piece : List Char}
    (h : piece ∈ pieces separator s) : separator ∉ piece := by
  induction s generalizing piece with
  | nil => simp_all [pieces]
  | cons c s ih =>
    rw [pieces] at h
    by_cases hc : c = separator
    · rw [if_pos hc] at h
      rcases List.mem_cons.mp h with rfl | h
      · exact List.not_mem_nil
      · exact ih h
    · rw [if_neg hc] at h
      cases hpieces : pieces separator s with
      | nil => exact absurd hpieces (pieces_ne_nil separator s)
      | cons first more =>
        rw [hpieces] at h ih
        rcases List.mem_cons.mp h with rfl | h
        · exact List.not_mem_cons_of_ne_of_not_mem (Ne.symm hc) (ih List.mem_cons_self)
        · exact ih (List.mem_cons_of_mem _ h)

theorem mem_of_mem_pieces {separator c : Char} {s piece : List Char}
    (h : piece ∈ pieces separator s) (hc : c ∈ piece) : c ∈ s := by
  induction s generalizing piece with
  | nil => simp_all [pieces]
  | cons d s ih =>
    rw [pieces] at h
    split at h
    · rcases List.mem_cons.mp h with rfl | h
      · exact absurd hc List.not_mem_nil
      · exact List.mem_cons_of_mem d (ih h hc)
    · cases hpieces : pieces separator s with
      | nil => exact absurd hpieces (pieces_ne_nil separator s)
      | cons first more =>
        rw [hpieces] at h ih
        rcases List.mem_cons.mp h with rfl | h
        · rcases List.mem_cons.mp hc with rfl | hc
          · exact List.mem_cons_self
          · exact List.mem_cons_of_mem d (ih List.mem_cons_self hc)
        · exact List.mem_cons_of_mem d (ih (List.mem_cons_of_mem _ h) hc)

/-- There is one piece exactly if there is no separator. -/
theorem tail_pieces_eq_nil_iff {separator : Char} {s : List Char} :
    (pieces separator s).tail = [] ↔ separator ∉ s := by
  refine ⟨fun h hmem => ?_, fun h => by rw [pieces_eq_singleton h, List.tail_cons]⟩
  obtain ⟨front, back, rfl⟩ := List.append_of_mem hmem
  rw [pieces_append_separator, List.tail_append_of_ne_nil (pieces_ne_nil _ _)] at h
  exact pieces_ne_nil separator back (List.append_eq_nil_iff.mp h).2

/-- What has no separator lengthens the last piece of the text before it. -/
theorem exists_pieces_append_eq (separator : Char) (s : List Char) :
    ∃ init last, pieces separator s = init ++ [last] ∧
      ∀ t, separator ∉ t → pieces separator (s ++ t) = init ++ [last ++ t] := by
  suffices h : ∃ init last, ∀ t, separator ∉ t → pieces separator (s ++ t) = init ++ [last ++ t] by
    obtain ⟨init, last, h⟩ := h
    exact ⟨init, last, by simpa using h [] (by simp), h⟩
  induction s with
  | nil => exact ⟨[], [], fun t ht => pieces_eq_singleton ht⟩
  | cons c s ih =>
    obtain ⟨init, last, h⟩ := ih
    by_cases hc : c = separator
    · refine ⟨[] :: init, last, fun t ht => ?_⟩
      rw [List.cons_append, pieces, if_pos hc, h t ht, List.cons_append]
    · cases init with
      | nil =>
        refine ⟨[], c :: last, fun t ht => ?_⟩
        rw [List.cons_append, pieces, if_neg hc, h t ht]
        rfl
      | cons piece init =>
        refine ⟨(c :: piece) :: init, last, fun t ht => ?_⟩
        rw [List.cons_append, pieces, if_neg hc, h t ht]
        rfl

theorem length_pieces_le (separator : Char) (s : List Char) :
    (pieces separator s).length ≤ s.length + 1 := by
  fun_induction pieces separator s with
  | case1 => simp
  | case2 rest ih => simpa using ih
  | case3 c rest hc hnone ih => simp
  | case4 c rest hc piece more hmore ih =>
    rw [hmore] at ih
    simp only [List.length_cons] at ih ⊢
    omega

/-- Lines at the start of a text, each with its end, are cut off one by one. -/
theorem pieces_flatMap_append {lines : List (List Char)} (h : ∀ l ∈ lines, '\n' ∉ l)
    (rest : List Char) :
    pieces '\n' (lines.flatMap (· ++ ['\n']) ++ rest) = lines ++ pieces '\n' rest := by
  induction lines with
  | nil => rfl
  | cons l lines ih =>
    rw [List.flatMap_cons, List.append_assoc, List.append_assoc, List.singleton_append,
      pieces_append_separator, pieces_eq_singleton (h l List.mem_cons_self),
      ih fun l' hl => h l' (List.mem_cons_of_mem _ hl), List.cons_append, List.cons_append,
      List.nil_append]

/-- The lines of a text in which every line has an end. -/
theorem pieces_flatMap {lines : List (List Char)} (hne : lines ≠ []) (h : ∀ l ∈ lines, '\n' ∉ l) :
    pieces '\n' (dropFinalLineFeed (lines.flatMap (· ++ ['\n']))) = lines := by
  obtain ⟨front, last, rfl⟩ : ∃ front last, lines = front ++ [last] :=
    ⟨lines.dropLast, lines.getLast hne, (List.dropLast_append_getLast hne).symm⟩
  have hfinal : dropFinalLineFeed ((front ++ [last]).flatMap (· ++ ['\n'])) =
      front.flatMap (· ++ ['\n']) ++ last := by
    rw [List.flatMap_append, List.flatMap_singleton, ← List.append_assoc, dropFinalLineFeed,
      if_pos (List.getLast?_concat ..), List.dropLast_concat]
  rw [hfinal, pieces_flatMap_append fun l hl => h l (List.mem_append_left _ hl),
    pieces_eq_singleton (h last (by simp))]

/-! ## Line ends -/

theorem unifyLineEnds_eq_self {s : List Char} (h : '\r' ∉ s) : unifyLineEnds s = s := by
  fun_induction unifyLineEnds s with
  | case1 => rfl
  | case2 rest => simp at h
  | case3 c rest _ ih => rw [ih (List.not_mem_of_not_mem_cons h)]

/-- Between two characters that are no line end together the text can be parted. -/
theorem unifyLineEnds_append {s : List Char} (h : s.getLast? ≠ some '\r') (t : List Char) :
    unifyLineEnds (s ++ t) = unifyLineEnds s ++ unifyLineEnds t := by
  fun_induction unifyLineEnds s with
  | case1 => rfl
  | case2 rest ih =>
    have hrest : rest.getLast? ≠ some '\r' := fun hlast => h (by simp [List.getLast?_cons, hlast])
    rw [List.cons_append, List.cons_append, unifyLineEnds, ih hrest, List.cons_append]
  | case3 c rest hc ih =>
    have hrest : rest.getLast? ≠ some '\r' := fun hlast => h (by simp [List.getLast?_cons, hlast])
    have hc' (more : List Char) (hr : c = '\r') (hn : rest ++ t = '\n' :: more) : False := by
      cases rest with
      | nil => exact h (congrArg some hr)
      | cons d rest =>
        cases hn
        exact hc _ hr rfl
    rw [List.cons_append, unifyLineEnds.eq_3 _ _ hc', ih hrest, List.cons_append]

/-- The pieces of a text on both sides of a line feed, whatever the ends of its lines. -/
theorem pieces_unifyLineEnds_append {s : List Char} (h : s.getLast? ≠ some '\r') (t : List Char) :
    pieces '\n' (unifyLineEnds (s ++ '\n' :: t)) =
      pieces '\n' (unifyLineEnds s) ++ pieces '\n' (unifyLineEnds t) := by
  have hfeed : unifyLineEnds ('\n' :: t) = '\n' :: unifyLineEnds t := by simp [unifyLineEnds]
  rw [unifyLineEnds_append h, hfeed, pieces_append_separator]

/-- A text of lines in which there are no control characters is cut into these lines. -/
theorem pieces_unifyLineEnds_flatMap {lines : List (List Char)}
    (h : ∀ l ∈ lines, ∀ c ∈ l, 32 ≤ c.toNat) :
    pieces '\n' (unifyLineEnds (lines.flatMap (· ++ ['\n']))) = lines ++ [[]] := by
  have hfeed : ∀ l ∈ lines, '\n' ∉ l := fun l hl hc => absurd (h l hl _ hc) (by decide)
  have hreturn : '\r' ∉ lines.flatMap (· ++ ['\n']) := by
    intro hmem
    obtain ⟨l, hl, hc⟩ := List.mem_flatMap.mp hmem
    rcases List.mem_append.mp hc with hc | hc
    · exact absurd (h l hl _ hc) (by decide)
    · exact absurd hc (by decide)
  rw [unifyLineEnds_eq_self hreturn, ← List.append_nil (lines.flatMap _),
    pieces_flatMap_append hfeed]
  rfl

/-- When line ends are unified, a piece loses at most a carriage return at its end. -/
theorem forall₂_pieces_unifyLineEnds (s : List Char) :
    List.Forall₂ (fun l raw => raw = l ∨ raw = l ++ ['\r']) (pieces '\n' (unifyLineEnds s))
      (pieces '\n' s) := by
  fun_induction unifyLineEnds s with
  | case1 => exact .cons (.inl rfl) .nil
  | case2 rest ih =>
    have hreturn : pieces '\n' ('\r' :: '\n' :: rest) = ['\r'] :: pieces '\n' rest :=
      pieces_append_separator '\n' ['\r'] rest
    rw [hreturn, pieces, if_pos rfl]
    exact .cons (.inr rfl) ih
  | case3 c rest _ ih =>
    rw [pieces, pieces]
    by_cases hc : c = '\n'
    · rw [if_pos hc, if_pos hc]
      exact .cons (.inl rfl) ih
    · rw [if_neg hc, if_neg hc]
      generalize pieces '\n' (unifyLineEnds rest) = ls at ih
      generalize pieces '\n' rest = raws at ih
      cases ih with
      | nil => exact .cons (.inl rfl) .nil
      | @cons l raw _ _ hraw hmore =>
        refine .cons ?_ hmore
        rcases hraw with rfl | rfl
        · exact .inl rfl
        · exact .inr rfl

theorem mem_unifyLineEnds {s : List Char} : '\n' ∈ unifyLineEnds s ↔ '\n' ∈ s := by
  fun_induction unifyLineEnds s with
  | case1 => rfl
  | case2 rest => simp
  | case3 c rest _ ih => rw [List.mem_cons, List.mem_cons, ih]

theorem length_unifyLineEnds_le (s : List Char) : (unifyLineEnds s).length ≤ s.length := by
  fun_induction unifyLineEnds s with
  | case1 => simp
  | case2 rest ih =>
    simp only [List.length_cons]
    omega
  | case3 c rest hc ih =>
    simp only [List.length_cons]
    omega

/-! ## Lines -/

/-- Lines are pieces; a line end at the end of the text leaves an empty piece, which is no line. -/
theorem exists_pieces_eq_lines_append (s : List Char) :
    ∃ blank, pieces '\n' (unifyLineEnds s) = lines s ++ blank ∧ ∀ l ∈ blank, l = [] := by
  rw [lines, dropFinalLineFeed]
  generalize unifyLineEnds s = u
  by_cases hend : u.getLast? = some '\n'
  · obtain ⟨front, rfl⟩ := List.getLast?_eq_some_iff.mp hend
    rw [if_pos hend, List.dropLast_concat, pieces_append_separator]
    cases front with
    | nil => exact ⟨[[], []], rfl, by simp⟩
    | cons c front => exact ⟨[[]], rfl, by simp⟩
  · rw [if_neg hend]
    cases u with
    | nil => exact ⟨[[]], rfl, by simp⟩
    | cons c u => exact ⟨[], (List.append_nil _).symm, by simp⟩

theorem unifyLineEnds_eq_nil_iff {s : List Char} : unifyLineEnds s = [] ↔ s = [] := by
  fun_cases unifyLineEnds s <;> simp

/-- A text has no lines if it is empty or a line end alone. -/
theorem lines_eq_nil_iff {s : List Char} :
    lines s = [] ↔ s ∈ [[], ['\n'], ['\r', '\n']] := by
  simp only [List.mem_cons, List.not_mem_nil, or_false]
  refine ⟨fun h => ?_, by rintro (rfl | rfl | rfl) <;> decide⟩
  have hunified : unifyLineEnds s = [] ∨ unifyLineEnds s = ['\n'] := by
    rw [lines] at h
    split at h
    · rename_i hbody
      rw [dropFinalLineFeed] at hbody
      split at hbody
      · rename_i hlast
        obtain ⟨front, hfront⟩ := List.getLast?_eq_some_iff.mp hlast
        rw [hfront, List.dropLast_concat] at hbody
        rw [hfront, hbody]
        exact .inr rfl
      · exact .inl hbody
    · exact absurd h (pieces_ne_nil _ _)
  fun_cases unifyLineEnds s with
  | case1 => exact .inl rfl
  | case2 rest =>
    rw [unifyLineEnds] at hunified
    simp [unifyLineEnds_eq_nil_iff] at hunified
    simp [hunified]
  | case3 c rest hc =>
    rw [unifyLineEnds.eq_3 _ _ hc] at hunified
    simp [unifyLineEnds_eq_nil_iff] at hunified
    simp [hunified]

theorem lines_ne_nil_of_head? {s : List Char} {c : Char} (h : c ∈ s.head?)
    (hc : c ≠ '\n' ∧ c ≠ '\r') : lines s ≠ [] := by
  rw [Ne, lines_eq_nil_iff]
  rintro hmem
  simp only [List.mem_cons, List.not_mem_nil, or_false] at hmem
  rcases hmem with rfl | rfl | rfl <;> cases h
  · exact hc.1 rfl
  · exact hc.2 rfl

end Contour.Text
