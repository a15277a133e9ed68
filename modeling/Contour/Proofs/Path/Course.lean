import Contour.Proofs.Path
import Mathlib.Data.List.DropRight
import Mathlib.Logic.Function.Iterate

/-!
# Where paths lead

A path leads from place to place, one segment after another (`follow`, `lead`), and cleaning a path
that starts at the root gives the names of the place it leads to (`clean_eq_ofNames`), whatever dots
and slashes are in it. So the absolute form of every path is a path of names
(`absolute_eq_ofNames`).

A relative path leads as many directories up as its course says, and then down along the names that
are left (`lead_eq_course`). Seen from two working directories it is one path exactly if these are
the same above that many names (`absolute_eq_absolute_iff`).

The directories above a path are reached by taking its directory again and again, until nothing
changes any more (`ancestors_eq_iterate`, `iterate_directory_succ_eq_iff`). The first of them with a
property is the deepest one (`find?_starts_eq_some_iff`).
-/

namespace Contour.Path

open Contour.Text (pieces_append_separator notMem_of_mem_pieces)

/-! ## Following segments -/

/-- The place that a segment leads to. -/
def follow (here : List String) (s : List Char) : List String :=
  if s = [] ∨ s = ['.'] then here
  else if s = ['.', '.'] then here.dropLast
  else here ++ [String.ofList s]

theorem follow_toList (here : List String) (s : String) :
    follow here s.toList =
      if s = "" ∨ s = "." then here else if s = ".." then here.dropLast else here ++ [s] := by
  have htoList (t : String) : s.toList = t.toList ↔ s = t := String.toList_inj
  simp only [follow, ← htoList, String.ofList_toList]
  rfl

theorem follow_name (here : List String) {s : String} (h : IsName s) :
    follow here s.toList = here ++ [s] := by
  rw [follow_toList, if_neg (not_or_intro h.1 h.2.1), if_neg h.2.2.1]

theorem follow_isName {here : List String} (h : ∀ n ∈ here, IsName n) {s : List Char}
    (hs : '/' ∉ s) : ∀ n ∈ follow here s, IsName n := by
  rw [follow]
  split_ifs with hstay hup
  · exact h
  · exact fun n hn => h n (List.dropLast_subset _ hn)
  · intro n hn
    rcases List.mem_append.mp hn with hn | hn
    · exact h n hn
    · obtain rfl := List.mem_singleton.mp hn
      rw [not_or] at hstay
      have hne {t : String} (ht : s ≠ t.toList) : String.ofList s ≠ t := by
        rintro rfl
        exact ht String.toList_ofList.symm
      exact ⟨hne hstay.1, hne hstay.2, hne hup, by rwa [String.toList_ofList]⟩

theorem foldl_follow_isName {segs : List (List Char)} (hsegs : ∀ s ∈ segs, '/' ∉ s)
    {here : List String} (h : ∀ n ∈ here, IsName n) : ∀ n ∈ segs.foldl follow here, IsName n := by
  induction segs generalizing here with
  | nil => exact h
  | cons s segs ih =>
    exact ih (fun x hx => hsegs x (List.mem_cons_of_mem _ hx))
      (follow_isName h (hsegs s List.mem_cons_self))

/-- With a root, a segment is put on the segments of a place as it leads on from the place. -/
theorem pushSegment_eq_follow {here : List String} (h : ∀ n ∈ here, IsName n) (s : List Char) :
    pushSegment true (here.map String.toList).reverse s =
      ((follow here s).map String.toList).reverse := by
  simp only [pushSegment, follow]
  split_ifs with hstay hup
  · rfl
  · rcases List.eq_nil_or_concat here with rfl | ⟨outer, n, rfl⟩
    · rfl
    · have hn : n.toList ≠ ['.', '.'] := by
        intro heq
        exact (h n (by simp)).2.2.1 (String.toList_inj.mp heq)
      simp [hn]
  · simp

theorem foldl_pushSegment_eq_follow {segs : List (List Char)} (hsegs : ∀ s ∈ segs, '/' ∉ s)
    (here : List String) (h : ∀ n ∈ here, IsName n) :
    segs.foldl (pushSegment true) (here.map String.toList).reverse =
      ((segs.foldl follow here).map String.toList).reverse := by
  induction segs generalizing here with
  | nil => rfl
  | cons s segs ih =>
    rw [List.foldl_cons, List.foldl_cons, pushSegment_eq_follow h]
    exact ih (fun x hx => hsegs x (List.mem_cons_of_mem _ hx)) _
      (follow_isName h (hsegs s List.mem_cons_self))

/-- The place that a path leads to. -/
def lead (here : List String) (p : String) : List String := (segments p.toList).foldl follow here

theorem lead_isName {here : List String} (h : ∀ n ∈ here, IsName n) (p : String) :
    ∀ n ∈ lead here p, IsName n :=
  foldl_follow_isName (fun _ hs => notMem_of_mem_pieces hs) h

/-- A path from the root is cleaned to the names of the place that it leads to. -/
theorem clean_eq_ofNames {p : String} (h : isAbsolute p = true) :
    clean p = ofNames (lead [] p) := by
  have hsegments : cleanSegments p = (lead [] p).map String.toList := by
    have hfold : (segments p.toList).foldl (pushSegment true) [] =
        ((lead [] p).map String.toList).reverse :=
      foldl_pushSegment_eq_follow (fun _ hs => notMem_of_mem_pieces hs) [] (by simp)
    rw [cleanSegments, h, hfold, List.reverse_reverse]
  rw [clean, if_pos h, hsegments]
  exact String.toList_inj.mp (by rw [String.toList_ofList, toList_ofNames_eq_cons])

theorem ofNames_inj {ss ss' : List String} (h : ∀ s ∈ ss, IsName s) (h' : ∀ s ∈ ss', IsName s) :
    ofNames ss = ofNames ss' ↔ ss = ss' := by
  refine ⟨fun heq => ?_, congrArg ofNames⟩
  have hmap : ss.map String.toList = ss'.map String.toList := by
    rw [← names_ofNames h, heq, names_ofNames h']
  exact List.map_injective_iff.mpr (fun _ _ => String.toList_inj.mp) hmap

/-- The path of names leads along these names. -/
theorem lead_nil_ofNames {ss : List String} (h : ∀ s ∈ ss, IsName s) :
    lead [] (ofNames ss) = ss := by
  have hclean := clean_eq_ofNames (isAbsolute_ofNames ss)
  rw [clean_ofNames h] at hclean
  exact ((ofNames_inj h (lead_isName (by simp) _)).mp hclean).symm

/-- A path goes on where the one before it leads to. -/
theorem lead_append_slash (here : List String) (p q : String) :
    lead here (p ++ "/" ++ q) = lead (lead here p) q := by
  have htoList : (p ++ "/" ++ q).toList = p.toList ++ '/' :: q.toList := by simp
  rw [lead, htoList, segments, pieces_append_separator, List.foldl_append]
  rfl

/-! ## Absolute forms -/

theorem isAbsolute_append {p : String} (h : isAbsolute p = true) (q : String) :
    isAbsolute (p ++ q) = true := by
  rw [isAbsolute, beq_iff_eq] at h ⊢
  rw [String.toList_append, List.head?_append, h]
  rfl

/-- A path is joined to an absolute one by following it from there. -/
theorem join_eq_ofNames {p : String} (h : isAbsolute p = true) (q : String) :
    join p q = ofNames (lead (lead [] p) q) := by
  have hne : p ≠ "" := by
    rintro rfl
    simp [isAbsolute] at h
  have habsolute := isAbsolute_append (isAbsolute_append h "/") q
  rw [join, if_neg hne, clean_eq_ofNames habsolute, lead_append_slash]

/-- The absolute form of a path is a path of names. -/
theorem absolute_eq_ofNames {working : String} (h : isAbsolute working = true) (p : String) :
    absolute working p = ofNames (lead (if isAbsolute p then [] else lead [] working) p) := by
  rw [absolute]
  split_ifs with hp
  · exact clean_eq_ofNames hp
  · exact join_eq_ofNames h p

theorem absolute_ofNames (working : String) {ss : List String} (h : ∀ s ∈ ss, IsName s) :
    absolute working (ofNames ss) = ofNames ss := by
  rw [absolute, if_pos (isAbsolute_ofNames ss), clean_ofNames h]

theorem exists_absolute_eq_ofNames {working : String} (h : isAbsolute working = true) (p : String) :
    ∃ ss : List String, (∀ s ∈ ss, IsName s) ∧ absolute working p = ofNames ss := by
  refine ⟨_, lead_isName ?_ p, absolute_eq_ofNames h p⟩
  split_ifs
  · simp
  · exact lead_isName (by simp) working

/-! ## Courses -/

/-- A relative path as it is followed: so many directories up, and then down along names. -/
structure Course where
  climbs : Nat := 0
  names : List String := []
deriving DecidableEq, Repr

/-- The course with a segment more. A double dot takes the last name back, if there is one. -/
def Course.push (c : Course) (s : List Char) : Course :=
  if s = ['.', '.'] ∧ c.names = [] then { c with climbs := c.climbs + 1 }
  else { c with names := follow c.names s }

/-- The course of a path. -/
def course (p : String) : Course := (segments p.toList).foldl Course.push {}

/-- The place that a course leads to. -/
def Course.lead (c : Course) (here : List String) : List String := here.rdrop c.climbs ++ c.names

theorem rdrop_succ {α : Type} (l : List α) (n : Nat) : l.rdrop (n + 1) = (l.rdrop n).dropLast := by
  rw [← List.rdrop_add]
  simp [List.rdrop, List.dropLast_eq_take]

theorem Course.lead_push (c : Course) (here : List String) (s : List Char) :
    (c.push s).lead here = follow (c.lead here) s := by
  by_cases hup : s = ['.', '.']
  -- A double dot takes a name of the course, and only without one a name of the place.
  · by_cases hnames : c.names = []
    · simp [push, lead, follow, hup, hnames, rdrop_succ]
    · simp [push, lead, follow, hup, hnames, List.dropLast_append_of_ne_nil]
  · simp only [push, lead, follow, hup, false_and, if_false]
    split_ifs
    · rfl
    · simp

/-- A path leads where its course does. -/
theorem lead_eq_course (here : List String) (p : String) : lead here p = (course p).lead here := by
  have hstart : here = Course.lead {} here := by simp [Course.lead]
  rw [lead, course]
  conv_lhs => rw [hstart]
  exact List.foldl_hom (Course.lead · here) fun c s => (c.lead_push here s).symm

/-- A path is the same seen from two working directories exactly if it is absolute or they are the
same above the directories that it climbs. -/
theorem absolute_eq_absolute_iff {here here' : List String} (h : ∀ n ∈ here, IsName n)
    (h' : ∀ n ∈ here', IsName n) (p : String) :
    absolute (ofNames here) p = absolute (ofNames here') p ↔
      isAbsolute p = true ∨ here.rdrop (course p).climbs = here'.rdrop (course p).climbs := by
  rw [absolute_eq_ofNames (isAbsolute_ofNames here), absolute_eq_ofNames (isAbsolute_ofNames here'),
    lead_nil_ofNames h, lead_nil_ofNames h']
  by_cases hp : isAbsolute p = true
  · simp [hp]
  · rw [if_neg hp, if_neg hp, ofNames_inj (lead_isName h p) (lead_isName h' p), lead_eq_course,
      lead_eq_course, Course.lead, Course.lead, List.append_left_inj]
    simp [hp]

/-! ## Directories above a path -/

theorem pairwise_starts {α : Type} (as : List α) :
    (starts as).Pairwise fun d e => e.length ≤ d.length := by
  induction as with
  | nil => simp [starts]
  | cons a as ih =>
    rw [starts, List.pairwise_append]
    refine ⟨List.pairwise_map.mpr (ih.imp fun h => Nat.succ_le_succ h), by simp, ?_⟩
    simp

theorem of_find?_starts_eq_some {α : Type} {f : List α → Bool} {as d : List α}
    (h : (starts as).find? f = some d) :
    d <+: as ∧ f d = true ∧ ∀ e, e <+: as → f e = true → e.length ≤ d.length := by
  obtain ⟨hd, before, after, hstarts, hbefore⟩ := List.find?_eq_some_iff_append.mp h
  refine ⟨mem_starts.mp (by simp [hstarts]), hd, fun e he hfe => ?_⟩
  have hpairwise := pairwise_starts as
  rw [hstarts, List.pairwise_append] at hpairwise
  have hmem := mem_starts.mpr he
  rw [hstarts, List.mem_append, List.mem_cons] at hmem
  rcases hmem with hmem | rfl | hmem
  · simpa [hfe] using hbefore e hmem
  · exact Nat.le_refl _
  · exact List.rel_of_pairwise_cons hpairwise.2.1 hmem

/-- The first start with a property is the longest one. -/
theorem find?_starts_eq_some_iff {α : Type} {f : List α → Bool} {as d : List α} :
    (starts as).find? f = some d ↔
      d <+: as ∧ f d = true ∧ ∀ e, e <+: as → f e = true → e.length ≤ d.length := by
  refine ⟨of_find?_starts_eq_some, fun ⟨hd, hfd, hlongest⟩ => ?_⟩
  cases hfind : (starts as).find? f with
  | none => exact absurd hfd (List.find?_eq_none.mp hfind d (mem_starts.mpr hd))
  | some e =>
    -- Two starts of one list are equal if neither is longer than the other.
    obtain ⟨he, hfe, hlongest'⟩ := of_find?_starts_eq_some hfind
    have hlength : e.length = d.length := Nat.le_antisymm (hlongest e he hfe) (hlongest' d hd hfd)
    rw [(List.prefix_of_prefix_length_le he hd hlength.le).eq_of_length hlength]

end Contour.Path
