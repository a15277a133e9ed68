import Contour.Proofs.Files.Tree
import Contour.Proofs.Path.Course

/-!
# The places of paths

A path that can be followed in a tree leads to the place that its text alone tells
(`locate_eq_lead`): the tree decides whether it can be followed, not where to. The path of a place
leads to something exactly if the place holds something, the directories above it are there, and
neither the path nor one of its names is too long (`isThere_ofNames_iff`).
-/

namespace Contour.Files.Tree

open Contour.Path (IsName ofNames trail)

/-! ## Steps and walks -/

/-- A segment can be followed from a directory only, and a name only if it is short enough. -/
theorem step_eq_ok {t : Tree} {here q : Place} {s : String} (h : t.step here s = .ok q) :
    t.get? here = some .directory ∧ q = Path.follow here s.toList ∧
      (IsName s → s.utf8ByteSize ≤ nameLimit) := by
  rw [step] at h
  cases hhere : t.get? here with
  | none => simp [hhere] at h
  | some e =>
    cases e with
    | directory =>
      rw [hhere] at h
      simp only at h
      rw [Path.follow_toList]
      split_ifs at h ⊢ with hstay hup hlong
      · exact ⟨rfl, (Except.ok.inj h).symm, fun hs => (hstay.elim hs.1 hs.2.1).elim⟩
      · exact ⟨rfl, (Except.ok.inj h).symm, fun hs => (hs.2.2.1 hup).elim⟩
      · exact ⟨rfl, (Except.ok.inj h).symm, fun _ => Nat.not_lt.mp hlong⟩
    | _ => simp [hhere] at h

theorem walk_eq_ok {t : Tree} {here q : Place} {ss : List String} (h : t.walk here ss = .ok q) :
    q = (ss.map String.toList).foldl Path.follow here := by
  induction ss generalizing here with
  | nil => exact (Except.ok.inj h).symm
  | cons s ss ih =>
    rw [walk] at h
    cases hstep : t.step here s with
    | error cause => simp [hstep] at h
    | ok next =>
      rw [hstep] at h
      obtain ⟨-, rfl, -⟩ := step_eq_ok hstep
      exact ih h

/-- A path leads to the place that it says, if it can be followed. -/
theorem locate_eq_lead {t : Tree} {working q : Place} {path : String}
    (h : t.locate working path = .ok q) : q = Path.lead (origin working path) path := by
  rw [locate, locateAs] at h
  cases hfault : fault? path with
  | some cause => simp [hfault] at h
  | none =>
    rw [hfault] at h
    have hwalk := walk_eq_ok h
    rw [segments, List.map_map] at hwalk
    simpa [Path.lead, Function.comp_def] using hwalk

/-- The absolute form of a path is the path of the place that it leads to. -/
theorem absolute_of_locate {t : Tree} {working q : Place} (hworking : ∀ n ∈ working, IsName n)
    {path : String} (h : t.locate working path = .ok q) :
    Path.absolute (ofNames working) path = ofNames q := by
  rw [Path.absolute_eq_ofNames (Path.isAbsolute_ofNames working), Path.lead_nil_ofNames hworking,
    locate_eq_lead h, origin]

/-! ## What is there -/

/-- Names can be followed only through directories. -/
theorem walk_names_eq_ok {t : Tree} {here q : Place} {ss : List String}
    (hnames : ∀ s ∈ ss, IsName s) (h : t.walk here ss = .ok q) :
    q = here ++ ss ∧ (∀ s ∈ ss, s.utf8ByteSize ≤ nameLimit) ∧
      ∀ d, d <+: ss → d ≠ ss → t.get? (here ++ d) = some .directory := by
  induction ss generalizing here with
  | nil =>
    refine ⟨by simpa using (Except.ok.inj h).symm, by simp, fun d hd hne => ?_⟩
    exact absurd (List.prefix_nil.mp hd) hne
  | cons s ss ih =>
    have hs := hnames s List.mem_cons_self
    rw [walk] at h
    cases hstep : t.step here s with
    | error cause => simp [hstep] at h
    | ok next =>
      rw [hstep] at h
      obtain ⟨hhere, hnext, hsize⟩ := step_eq_ok hstep
      rw [Path.follow_name here hs] at hnext
      subst hnext
      obtain ⟨hq, hsizes, hparents⟩ := ih (fun x hx => hnames x (List.mem_cons_of_mem _ hx)) h
      refine ⟨by simpa using hq, ?_, fun d hd hne => ?_⟩
      · intro x hx
        rcases List.mem_cons.mp hx with rfl | hx
        · exact hsize hs
        · exact hsizes x hx
      · rcases List.prefix_cons_iff.mp hd with rfl | ⟨d, rfl, hd'⟩
        · simpa using hhere
        · simpa using hparents d hd' (fun heq => hne (by rw [heq]))

/-- The path of names is followed along them. -/
theorem locate_ofNames_eq_ok {t : Tree} {working p q : Place} (hp : p ≠ [])
    (hnames : ∀ s ∈ p, IsName s) (h : t.locate working (ofNames p) = .ok q) :
    fault? (ofNames p) = none ∧ t.walk [] p = .ok q := by
  have hsegments : segments (ofNames p) = "" :: p := by
    rw [segments, Path.toList_ofNames hp, Path.segments_trail hnames]
    simp
  have hroot : t.step [] "" = .ok [] := by simp [step]
  rw [locate, locateAs] at h
  cases hfault : fault? (ofNames p) with
  | some cause => simp [hfault] at h
  | none =>
    rw [hfault, origin, if_pos (Path.isAbsolute_ofNames p), hsegments] at h
    simp only [walk, hroot] at h
    exact ⟨rfl, h⟩

theorem of_fault?_eq_none {path : String} (h : fault? path = none) :
    Char.ofNat 0 ∉ path.toList ∧ path.utf8ByteSize < pathLimit := by
  rw [fault?] at h
  split_ifs at h with hempty hzero hlong
  exact ⟨by simpa using hzero, Nat.not_le.mp hlong⟩

/-- The path of a place leads to something exactly if the place can be reached and holds
something. -/
theorem isThere_ofNames_iff {t : Tree} {p : Place} (hp : p ≠ []) (hnames : ∀ s ∈ p, IsName s)
    (working : Place) :
    t.isThere working (ofNames p) = true ↔ t.Reachable p ∧ (t.get? p).isSome = true := by
  constructor
  · intro h
    cases hlocate : t.locate working (ofNames p) with
    | error cause => simp [isThere, hlocate] at h
    | ok q =>
      have hsome : (t.get? q).isSome = true := by simpa [isThere, hlocate] using h
      obtain ⟨hfault, hwalk⟩ := locate_ofNames_eq_ok hp hnames hlocate
      obtain ⟨hzero, hshort⟩ := of_fault?_eq_none hfault
      obtain ⟨hq, hsizes, hparents⟩ := walk_names_eq_ok hnames hwalk
      rw [hq] at hsome
      have hentries : ∀ s ∈ p, IsEntryName s := by
        refine fun s hs => ⟨hnames s hs, fun hmem => hzero ?_, hsizes s hs⟩
        rw [Path.toList_ofNames hp]
        exact List.mem_flatMap.mpr ⟨s, hs, List.mem_cons_of_mem _ hmem⟩
      exact ⟨⟨hentries, hshort, hparents⟩, hsome⟩
  · rintro ⟨hreachable, hsome⟩
    simpa [isThere, hreachable.locate_ofNames hp working] using hsome

/-! ## Reading and writing -/

/-- What is read stands in the place of the path. -/
theorem read_eq_ok {t : Tree} {working : Place} {path : String} {bytes : List UInt8}
    (h : t.read working path = .ok bytes) :
    ∃ q, t.locate working path = .ok q ∧
      (t.get? q = some (.file bytes) ∨ t.get? q = some .sink) := by
  rw [read] at h
  cases hlocate : t.locate working path with
  | error cause => simp [hlocate] at h
  | ok q =>
    refine ⟨q, rfl, ?_⟩
    rw [hlocate] at h
    simp only at h
    split at h
    · cases h
    · cases h
    · rename_i hfile
      exact .inl (Except.ok.inj h ▸ hfile)
    · exact .inr ‹_›

/-- Writing changes the place of the path only. -/
theorem write_eq_ok {t t' : Tree} {working : Place} {path : String} {bytes : List UInt8}
    (h : t.write working path bytes = .ok t') :
    ∃ q, t.locate working path = .ok q ∧ ∀ p, p ≠ q → t'.get? p = t.get? p := by
  rw [write] at h
  cases htarget : t.target working path with
  | error cause => simp [htarget] at h
  | ok q =>
    obtain ⟨-, hlocate, hq⟩ := target_eq_ok_iff.mp htarget
    refine ⟨q, hlocate, fun p hp => ?_⟩
    rw [htarget] at h
    simp only at h
    split_ifs at h
    · rw [Except.ok.inj h]
    · rw [← Except.ok.inj h, get?_put t (ne_nil_of_get?_ne hq), if_neg hp]

/-- What a path from the root gives does not depend on the working directory. -/
theorem read_of_isAbsolute (t : Tree) {path : String} (h : Path.isAbsolute path = true)
    (working working' : Place) : t.read working path = t.read working' path := by
  simp only [read, locate, locateAs, origin, h, if_true]

end Contour.Files.Tree
