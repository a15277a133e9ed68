import Contour.Path
import Contour.Proofs.Text.Lines
import Mathlib.Data.List.Induction

/-!
# Paths of names

A list of ordinary names is written as an absolute path (`ofNames`), and everything that is done
with paths can be said about the names: cleaning leaves such a path (`clean_ofNames`), joining puts
lists of names together (`join_ofNames`), the directory is without the last name
(`directory_ofNames`), and the directories above it are the starts of the list
(`ancestors_ofNames`).
-/

namespace Contour.Path

open Contour.Text (pieces_append_separator pieces_eq_singleton)

/-! ## Names -/

/-- A name that stands for itself in a path. -/
def IsName (s : String) : Prop := s ≠ "" ∧ s ≠ "." ∧ s ≠ ".." ∧ '/' ∉ s.toList

instance (s : String) : Decidable (IsName s) := inferInstanceAs (Decidable (_ ∧ _))

/-- The names along a path: its segments that are not empty. -/
def names (p : List Char) : List (List Char) := (segments p).filter (!·.isEmpty)

theorem names_append_slash (s t : List Char) : names (s ++ '/' :: t) = names s ++ names t := by
  rw [names, segments, pieces_append_separator, List.filter_append]
  rfl

theorem IsName.names_eq {s : String} (h : IsName s) : names s.toList = [s.toList] := by
  have hne : s.toList ≠ [] := by simpa using h.1
  rw [names, segments, pieces_eq_singleton h.2.2.2]
  simp [hne]

/-- The names as they are, with a slash before each of them. -/
def trail (ss : List String) : List Char := ss.flatMap fun s => '/' :: s.toList

theorem trail_concat (ss : List String) (s : String) :
    trail (ss ++ [s]) = trail ss ++ '/' :: s.toList := by
  simp [trail]

theorem segments_trail {ss : List String} (h : ∀ s ∈ ss, IsName s) :
    segments (trail ss) = [] :: ss.map String.toList := by
  induction ss using List.reverseRecOn with
  | nil => rfl
  | append_singleton ss s ih =>
    have hs := h s (by simp)
    rw [trail_concat, segments, pieces_append_separator, pieces_eq_singleton hs.2.2.2]
    rw [segments] at ih
    rw [ih fun x hx => h x (by simp [hx])]
    simp

theorem names_trail {ss : List String} (h : ∀ s ∈ ss, IsName s) :
    names (trail ss) = ss.map String.toList := by
  rw [names, segments_trail h, List.filter_cons_of_neg (by simp)]
  refine List.filter_eq_self.mpr fun x hx => ?_
  obtain ⟨s, hs, rfl⟩ := List.mem_map.mp hx
  simpa using (h s hs).1

/-- The absolute path of names. -/
def ofNames (ss : List String) : String := "/" ++ String.intercalate "/" ss

/-- Segments with slashes between them are a trail without its first slash. -/
theorem cons_joinSegments {ss : List String} (h : ss ≠ []) :
    '/' :: joinSegments (ss.map String.toList) = trail ss := by
  induction ss with
  | nil => exact absurd rfl h
  | cons s ss ih =>
    cases ss with
    | nil => simp [joinSegments, trail]
    | cons s' ss =>
      have ih := ih (List.cons_ne_nil _ _)
      rw [List.map_cons, List.map_cons, joinSegments, List.intercalate_cons_cons]
      rw [List.map_cons, joinSegments] at ih
      have htrail : trail (s :: s' :: ss) = '/' :: s.toList ++ trail (s' :: ss) := rfl
      rw [htrail, ← ih]
      simp

theorem toList_ofNames_eq_cons (ss : List String) :
    (ofNames ss).toList = '/' :: joinSegments (ss.map String.toList) := by
  simp [ofNames, joinSegments]

theorem toList_ofNames {ss : List String} (h : ss ≠ []) : (ofNames ss).toList = trail ss := by
  rw [toList_ofNames_eq_cons, cons_joinSegments h]

theorem ofNames_concat (ss : List String) (s : String) :
    (ofNames (ss ++ [s])).toList = trail ss ++ '/' :: s.toList := by
  rw [toList_ofNames (by simp), trail_concat]

@[simp] theorem isAbsolute_ofNames (ss : List String) : isAbsolute (ofNames ss) = true := by
  rw [isAbsolute, toList_ofNames_eq_cons]
  rfl

theorem names_ofNames {ss : List String} (h : ∀ s ∈ ss, IsName s) :
    names (ofNames ss).toList = ss.map String.toList := by
  by_cases hne : ss = []
  · subst hne
    rfl
  · rw [toList_ofNames hne, names_trail h]

/-! ## Cleaning -/

theorem foldl_pushSegment {segs : List (List Char)} (rooted : Bool)
    (h : ∀ s ∈ segs, s ≠ ['.'] ∧ s ≠ ['.', '.']) (before : List (List Char)) :
    segs.foldl (pushSegment rooted) before = (segs.filter (!·.isEmpty)).reverse ++ before := by
  induction segs generalizing before with
  | nil => rfl
  | cons s segs ih =>
    obtain ⟨hdot, hdots⟩ := h s List.mem_cons_self
    rw [List.foldl_cons, ih fun x hx => h x (List.mem_cons_of_mem _ hx)]
    by_cases hs : s = []
    · simp [pushSegment, hs]
    · simp [pushSegment, hs, hdot, hdots]

/-- Only names are left of a path of names. -/
theorem clean_of_names {p : String} {ss : List String} (habsolute : isAbsolute p = true)
    (hnames : names p.toList = ss.map String.toList) (h : ∀ s ∈ ss, IsName s) :
    cleanSegments p = ss.map String.toList ∧ clean p = ofNames ss := by
  have hsegments : ∀ s ∈ segments p.toList, s ≠ ['.'] ∧ s ≠ ['.', '.'] := by
    intro x hx
    by_cases hne : x = []
    · simp [hne]
    · have hmem : x ∈ ss.map String.toList := by
        rw [← hnames]
        exact List.mem_filter.mpr ⟨hx, by simpa using hne⟩
      obtain ⟨s, hs, rfl⟩ := List.mem_map.mp hmem
      obtain ⟨-, hdot, hdots, -⟩ := h s hs
      exact ⟨fun heq => hdot (String.toList_inj.mp heq),
        fun heq => hdots (String.toList_inj.mp heq)⟩
  have hclean : cleanSegments p = ss.map String.toList := by
    rw [cleanSegments, foldl_pushSegment _ hsegments, List.append_nil, List.reverse_reverse]
    exact hnames
  refine ⟨hclean, ?_⟩
  rw [clean, hclean, if_pos habsolute]
  exact String.toList_inj.mp (by rw [String.toList_ofList, toList_ofNames_eq_cons])

theorem cleanSegments_ofNames {ss : List String} (h : ∀ s ∈ ss, IsName s) :
    cleanSegments (ofNames ss) = ss.map String.toList :=
  (clean_of_names (isAbsolute_ofNames ss) (names_ofNames h) h).1

theorem clean_ofNames {ss : List String} (h : ∀ s ∈ ss, IsName s) :
    clean (ofNames ss) = ofNames ss :=
  (clean_of_names (isAbsolute_ofNames ss) (names_ofNames h) h).2

/-- Names are joined to names. -/
theorem join_ofNames {ss bs : List String} {b : String} (h : ∀ s ∈ ss, IsName s)
    (hb : ∀ s ∈ bs, IsName s) (hnames : names b.toList = bs.map String.toList) :
    join (ofNames ss) b = ofNames (ss ++ bs) := by
  have hne : ofNames ss ≠ "" := by
    intro heq
    have := congrArg String.toList heq
    simp [toList_ofNames_eq_cons] at this
  have habsolute : isAbsolute (ofNames ss ++ "/" ++ b) = true := by
    simp [isAbsolute, toList_ofNames_eq_cons]
  have hall : names (ofNames ss ++ "/" ++ b).toList = (ss ++ bs).map String.toList := by
    have htoList : (ofNames ss ++ "/" ++ b).toList = (ofNames ss).toList ++ '/' :: b.toList := by
      simp
    rw [htoList, names_append_slash, names_ofNames h, hnames, List.map_append]
  rw [join, if_neg hne]
  refine (clean_of_names habsolute hall fun s hs => ?_).2
  rcases List.mem_append.mp hs with hs | hs
  · exact h s hs
  · exact hb s hs

/-! ## Directories -/

theorem upToSlash_append {s t : List Char} (h : '/' ∉ t) :
    upToSlash (s ++ '/' :: t) = s ++ ['/'] := by
  have hpos : ∀ c ∈ t.reverse, (c != '/') = true := by
    intro c hc
    have hne : c ≠ '/' := fun heq => h (heq ▸ List.mem_reverse.mp hc)
    simpa using hne
  rw [upToSlash, List.reverse_append, List.reverse_cons, List.append_assoc,
    List.dropWhile_append_of_pos hpos]
  simp

/-- The directory of a path is without its last name. -/
theorem directory_ofNames {ss : List String} {s : String} (h : ∀ x ∈ ss, IsName x)
    (hs : IsName s) : directory (ofNames (ss ++ [s])) = ofNames ss := by
  rw [directory, ofNames_concat, upToSlash_append hs.2.2.2]
  refine (clean_of_names ?_ ?_ h).2
  · cases ss with
    | nil => rfl
    | cons x ss => simp [isAbsolute, trail]
  · rw [String.toList_ofList, names_append_slash, names_trail h]
    simp [names, segments, Text.pieces]

theorem starts_map {α β : Type} (f : α → β) (as : List α) :
    starts (as.map f) = (starts as).map (List.map f) := by
  induction as with
  | nil => rfl
  | cons a as ih => simp [starts, ih]

theorem mem_starts {α : Type} {d as : List α} : d ∈ starts as ↔ d <+: as := by
  induction as generalizing d with
  | nil => simp [starts]
  | cons a as ih =>
    rw [starts, List.mem_append, List.mem_map, List.mem_singleton, List.prefix_cons_iff]
    constructor
    · rintro (⟨d, hd, rfl⟩ | rfl)
      · exact .inr ⟨d, rfl, ih.mp hd⟩
      · exact .inl rfl
    · rintro (rfl | ⟨d, rfl, hd⟩)
      · exact .inr rfl
      · exact .inl ⟨d, ih.mpr hd, rfl⟩

/-- The directories above a path are those of the starts of its names. -/
theorem ancestors_ofNames {ss : List String} (h : ∀ s ∈ ss, IsName s) :
    ancestors (ofNames ss) = (starts ss).map ofNames := by
  rw [ancestors, cleanSegments_ofNames h, starts_map, List.map_map]
  refine List.map_congr_left fun d _ => ?_
  exact String.toList_inj.mp (by simp [toList_ofNames_eq_cons])

end Contour.Path
