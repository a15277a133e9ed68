import Contour.Text.Blank
import Mathlib.Data.List.Basic
import Mathlib.Data.List.TakeWhile

/-!
# Texts without the blanks at their ends

`trimEnd` leaves out blanks at the end and nothing else (`exists_eq_trimEnd_append`), so that blanks
there make no difference to it (`trimEnd_append`). `trim s` is the one text that is left of `s` when
blanks at both ends are left out until there are none (`trim_eq_iff`).
-/

namespace Contour.Text

/-- A run of one kind of characters ends where another kind starts. -/
theorem takeWhile_dropWhile_append {p : Char → Bool} {s t : List Char} (hs : ∀ c ∈ s, p c = true)
    (ht : ∀ c ∈ t.head?, p c = false) :
    (s ++ t).takeWhile p = s ∧ (s ++ t).dropWhile p = t := by
  rw [List.takeWhile_append_of_pos hs, List.dropWhile_append_of_pos hs]
  cases t with
  | nil => simp
  | cons c t =>
    have hc : ¬ p c = true := by simp [ht c rfl]
    rw [List.takeWhile_cons_of_neg hc, List.dropWhile_cons_of_neg hc, List.append_nil]
    exact ⟨rfl, rfl⟩

theorem not_isBlank_of_mem_head?_dropWhile {s : List Char} {c : Char}
    (h : c ∈ (s.dropWhile isBlank).head?) : isBlank c = false := by
  have hhead := List.head?_dropWhile_not isBlank s
  rw [Option.mem_def.mp h] at hhead
  exact hhead

/-! ## The end of a text -/

/-- What `trimEnd` leaves out are blanks. -/
theorem exists_eq_trimEnd_append (s : List Char) :
    ∃ trail, s = trimEnd s ++ trail ∧ ∀ c ∈ trail, isBlank c = true := by
  refine ⟨(s.reverse.takeWhile isBlank).reverse, ?_, fun c hc => ?_⟩
  · have hsplit := List.takeWhile_append_dropWhile (p := isBlank) (l := s.reverse)
    rw [trimEnd, dropEndWhile, ← List.reverse_append, hsplit, List.reverse_reverse]
  · exact List.mem_takeWhile_imp (List.mem_reverse.mp hc)

theorem not_isBlank_of_mem_getLast?_trimEnd {s : List Char} {c : Char}
    (h : c ∈ (trimEnd s).getLast?) : isBlank c = false := by
  rw [trimEnd, dropEndWhile, List.getLast?_reverse] at h
  exact not_isBlank_of_mem_head?_dropWhile h

theorem trimEnd_append {trail : List Char} (h : ∀ c ∈ trail, isBlank c = true) (s : List Char) :
    trimEnd (s ++ trail) = trimEnd s := by
  have hblank : ∀ c ∈ trail.reverse, isBlank c = true := fun c hc => h c (List.mem_reverse.mp hc)
  rw [trimEnd, dropEndWhile, List.reverse_append, List.dropWhile_append_of_pos hblank, trimEnd,
    dropEndWhile]

/-! ## Both ends -/

/-- Blanks around a text are trimmed off it. -/
theorem trim_margins {lead s trail : List Char} (hne : s ≠ [])
    (hlead : ∀ c ∈ lead, isBlank c = true) (htrail : ∀ c ∈ trail, isBlank c = true)
    (hfirst : ∀ c ∈ s.head?, isBlank c = false)
    (hlast : ∀ c ∈ s.getLast?, isBlank c = false) : trim (lead ++ (s ++ trail)) = s := by
  have hstart : trimStart (lead ++ (s ++ trail)) = s ++ trail := by
    refine (takeWhile_dropWhile_append hlead fun c hc => ?_).2
    rw [List.head?_append_of_ne_nil _ hne] at hc
    exact hfirst c hc
  have hend : (trail.reverse ++ s.reverse).dropWhile isBlank = s.reverse := by
    refine (takeWhile_dropWhile_append (fun c hc => ?_) fun c hc => ?_).2
    · exact htrail c (List.mem_reverse.mp hc)
    · rw [List.head?_reverse] at hc
      exact hlast c hc
  rw [trim, hstart, trimEnd, dropEndWhile, List.reverse_append, hend, List.reverse_reverse]

/-- What is trimmed off a text are blanks. -/
theorem exists_margins (s : List Char) :
    ∃ lead trail, s = lead ++ (trim s ++ trail) ∧ (∀ c ∈ lead, isBlank c = true) ∧
      ∀ c ∈ trail, isBlank c = true := by
  obtain ⟨trail, hend, htrail⟩ := exists_eq_trimEnd_append (trimStart s)
  refine ⟨s.takeWhile isBlank, trail, ?_, fun c hc => List.mem_takeWhile_imp hc, htrail⟩
  rw [trim, ← hend, trimStart, List.takeWhile_append_dropWhile]

/-- A text without the blanks at its ends. -/
structure IsCore (text core : List Char) : Prop where
  /-- Only blanks are left out. -/
  margins : ∃ lead trail, text = lead ++ (core ++ trail) ∧ (∀ c ∈ lead, isBlank c = true) ∧
    ∀ c ∈ trail, isBlank c = true
  /-- All of them are left out, at the start and at the end. -/
  head : ∀ c ∈ core.head?, isBlank c = false
  last : ∀ c ∈ core.getLast?, isBlank c = false

theorem isCore_trim (s : List Char) : IsCore s (trim s) := by
  refine ⟨exists_margins s, fun c hc => ?_, fun c hc => not_isBlank_of_mem_getLast?_trimEnd hc⟩
  obtain ⟨trail, hend, -⟩ := exists_eq_trimEnd_append (trimStart s)
  refine not_isBlank_of_mem_head?_dropWhile (s := s) ?_
  rw [← trimStart, hend]
  exact List.mem_head?_append_of_mem_head? hc

theorem trim_eq_iff {s core : List Char} : trim s = core ↔ IsCore s core := by
  constructor
  · rintro rfl
    exact isCore_trim s
  · rintro ⟨⟨lead, trail, rfl, hlead, htrail⟩, hhead, hlast⟩
    cases core with
    | nil =>
      have hblank : ∀ c ∈ lead ++ trail, isBlank c = true := fun c hc =>
        (List.mem_append.mp hc).elim (hlead c) (htrail c)
      rw [List.nil_append, trim, trimStart, List.dropWhile_eq_nil_iff.mpr hblank]
      rfl
    | cons c core => exact trim_margins (List.cons_ne_nil c core) hlead htrail hhead hlast

end Contour.Text
