import Contour.Files.Tree
import Contour.Proofs.Path

/-!
# Places in file trees

What is put in one place leaves the others (`get?_put`). A path leads to the same place as long as
its directories stay (`locate_of_keeps`), so that a file is read back from where it was written
(`read_put`). The path of names leads to the place with these names if all directories above it are
there (`locate_ofNames`), and making such directories makes no more than the last one
(`makeDirectories_ofNames`).
-/

namespace Contour.Files.Tree

open Contour.Path (IsName ofNames trail)

/-! ## Entries -/

@[simp] theorem get?_nil (t : Tree) : t.get? [] = some .directory := by
  simp [get?]

theorem find?_map_put (entries : List (Place × Entry)) (p q : Place) (e : Entry) :
    ((entries.map fun old => if old.1 == p then (p, e) else old).find? (·.1 == q)) =
      if q = p then (entries.find? (·.1 == p)).map fun _ => (p, e)
      else entries.find? (·.1 == q) := by
  induction entries with
  | nil => simp
  | cons old entries ih =>
    rw [List.map_cons]
    by_cases hold : old.1 = p
    · rw [if_pos (by simpa using hold)]
      by_cases hq : q = p
      · simp [hold, hq]
      · rw [List.find?_cons_of_neg (by simpa using Ne.symm hq), ih, if_neg hq, if_neg hq,
          List.find?_cons_of_neg (by simpa [hold] using Ne.symm hq)]
    · rw [if_neg (by simpa using hold), List.find?_cons, List.find?_cons, List.find?_cons, ih]
      by_cases hq : q = p
      · simp [hq, beq_eq_false_iff_ne.mpr hold]
      · simp [hq]

/-- What is put in one place leaves the others. -/
theorem get?_put (t : Tree) {p : Place} (hp : p ≠ []) (e : Entry) (q : Place) :
    (t.put p e).get? q = if q = p then some e else t.get? q := by
  by_cases hq : q = []
  · simp [hq, Ne.symm hp]
  · rw [get?, get?, if_neg hq, if_neg hq, put]
    split
    · rename_i hany
      obtain ⟨old, hfound⟩ := Option.isSome_iff_exists.mp
        (List.find?_isSome.mpr (List.any_eq_true.mp hany))
      rw [find?_map_put]
      by_cases hqp : q = p
      · simp [hqp, hfound]
      · simp [hqp]
    · rename_i hany
      have hnone : t.entries.find? (·.1 == p) = none :=
        List.find?_eq_none.mpr fun x hx hxp => hany (List.any_eq_true.mpr ⟨x, hx, hxp⟩)
      rw [List.find?_append]
      by_cases hqp : q = p
      · simp [hqp, hnone]
      · simp [hqp, Ne.symm hqp]

/-! ## Trees that keep their directories -/

/-- Every directory of the one tree is a directory of the other. -/
def Keeps (t t' : Tree) : Prop := ∀ q, t.get? q = some .directory → t'.get? q = some .directory

theorem ne_nil_of_get?_ne {t : Tree} {p : Place} (h : t.get? p ≠ some .directory) : p ≠ [] := by
  rintro rfl
  exact h t.get?_nil

theorem keeps_put {t : Tree} {p : Place} (h : t.get? p ≠ some .directory) (e : Entry) :
    t.Keeps (t.put p e) := by
  intro q hq
  have hne : q ≠ p := by
    rintro rfl
    exact h hq
  rw [get?_put t (ne_nil_of_get?_ne h), if_neg hne, hq]

theorem step_of_keeps {t t' : Tree} (h : t.Keeps t') {here p : Place} {s : String}
    (hstep : t.step here s = .ok p) : t'.step here s = .ok p := by
  rw [step] at hstep ⊢
  cases hhere : t.get? here with
  | none => simp [hhere] at hstep
  | some e =>
    cases e with
    | directory =>
      rw [hhere] at hstep
      rw [h here hhere]
      exact hstep
    | _ => simp [hhere] at hstep

theorem walk_of_keeps {t t' : Tree} (h : t.Keeps t') {here p : Place} {ss : List String}
    (hwalk : t.walk here ss = .ok p) : t'.walk here ss = .ok p := by
  induction ss generalizing here with
  | nil => exact hwalk
  | cons s ss ih =>
    rw [walk] at hwalk ⊢
    cases hstep : t.step here s with
    | error e => simp [hstep] at hwalk
    | ok next =>
      rw [hstep] at hwalk
      rw [step_of_keeps h hstep]
      exact ih hwalk

theorem locateAs_of_keeps {t t' : Tree} (h : t.Keeps t') {working p : Place} {path left : String}
    (hlocate : t.locateAs working path left = .ok p) : t'.locateAs working path left = .ok p := by
  rw [locateAs] at hlocate ⊢
  cases hfault : fault? path with
  | some cause => simp [hfault] at hlocate
  | none =>
    rw [hfault] at hlocate
    exact walk_of_keeps h hlocate

theorem locate_of_keeps {t t' : Tree} (h : t.Keeps t') {working p : Place} {path : String}
    (hlocate : t.locate working path = .ok p) : t'.locate working path = .ok p :=
  locateAs_of_keeps h hlocate

/-! ## Files -/

/-- Where a file can be written: the path leads there, and there is no directory. -/
theorem target_eq_ok_iff {t : Tree} {working p : Place} {path : String} :
    t.target working path = .ok p ↔
      endsInSlash path = false ∧ t.locate working path = .ok p ∧ t.get? p ≠ some .directory := by
  rw [target]
  cases endsInSlash path with
  | true => cases t.locateBare working path <;> simp
  | false =>
    cases t.locate working path with
    | error cause => simp
    | ok q =>
      by_cases hq : t.get? q = some .directory
      · have hnot : q = p → t.get? p = some .directory := by
          rintro rfl
          exact hq
        simpa [hq] using hnot
      · have hnot : q = p → t.get? p ≠ some .directory := by
          rintro rfl
          exact hq
        simpa [hq] using hnot

theorem write_eq {t : Tree} {working p : Place} {path : String}
    (h : t.target working path = .ok p) (hsink : t.get? p ≠ some .sink) (bytes : List UInt8) :
    t.write working path bytes = .ok (t.put p (.file bytes)) := by
  simp only [write, h, if_neg hsink]

theorem read_eq_ok_of_file {t : Tree} {working p : Place} {path : String} {bytes : List UInt8}
    (h : t.locate working path = .ok p) (hfile : t.get? p = some (.file bytes)) :
    t.read working path = .ok bytes := by
  simp only [read, h, hfile]

theorem ne_empty_of_target {t : Tree} {working p : Place} {path : String}
    (h : t.target working path = .ok p) : path ≠ "" := by
  rintro rfl
  have hmissing : t.target working "" = .error .missing := rfl
  rw [hmissing] at h
  cases h

/-- A file that was written can be written again, and what was written is read. -/
theorem target_and_read_put {t : Tree} {working p : Place} {path : String}
    (h : t.target working path = .ok p) (bytes : List UInt8) :
    (t.put p (.file bytes)).target working path = .ok p ∧
      (t.put p (.file bytes)).read working path = .ok bytes := by
  obtain ⟨hslash, hlocate, hp⟩ := target_eq_ok_iff.mp h
  have hfile : (t.put p (.file bytes)).get? p = some (.file bytes) := by
    rw [get?_put t (ne_nil_of_get?_ne hp), if_pos rfl]
  have hlocate' := locate_of_keeps (keeps_put hp (.file bytes)) hlocate
  exact ⟨target_eq_ok_iff.mpr ⟨hslash, hlocate', by simp [hfile]⟩,
    read_eq_ok_of_file hlocate' hfile⟩

/-- A file is read as before if its place keeps what it holds. -/
theorem read_of_keeps {t t' : Tree} (h : t.Keeps t') {working : Place} {path : String}
    {bytes : List UInt8} (hread : t.read working path = .ok bytes)
    (hsame : ∀ p, t.locate working path = .ok p → t'.get? p = t.get? p) :
    t'.read working path = .ok bytes := by
  cases hlocate : t.locate working path with
  | error cause => simp [read, hlocate] at hread
  | ok p =>
    rw [read, hlocate] at hread
    rw [read, locate_of_keeps h hlocate]
    simp only [hsame p hlocate]
    exact hread

/-! ## Paths of names -/

/-- A name that an entry of a directory can have. -/
def IsEntryName (s : String) : Prop :=
  IsName s ∧ Char.ofNat 0 ∉ s.toList ∧ s.utf8ByteSize ≤ nameLimit

instance (s : String) : Decidable (IsEntryName s) := inferInstanceAs (Decidable (_ ∧ _))

/-- A place that its path leads to: the names can be used, the path is not too long, and all
directories above the place are there. -/
structure Reachable (t : Tree) (p : Place) : Prop where
  names : ∀ s ∈ p, IsEntryName s
  short : (ofNames p).utf8ByteSize < pathLimit
  parents : ∀ d, d <+: p → d ≠ p → t.get? d = some .directory

theorem Reachable.isName {t : Tree} {p : Place} (h : t.Reachable p) : ∀ s ∈ p, IsName s :=
  fun s hs => (h.names s hs).1

theorem step_name {t : Tree} {here : Place} {s : String} (hhere : t.get? here = some .directory)
    (hs : IsEntryName s) : t.step here s = .ok (here ++ [s]) := by
  obtain ⟨⟨hempty, hdot, hdots, -⟩, -, hlimit⟩ := hs
  simp [step, hhere, hempty, hdot, hdots, Nat.not_lt.mpr hlimit]

theorem walk_names {t : Tree} {here : Place} {ss : List String} (hnames : ∀ s ∈ ss, IsEntryName s)
    (hparents : ∀ d, d <+: ss → d ≠ ss → t.get? (here ++ d) = some .directory) :
    t.walk here ss = .ok (here ++ ss) := by
  induction ss generalizing here with
  | nil => simp [walk]
  | cons s ss ih =>
    have hhere : t.get? here = some .directory := by
      simpa using hparents [] (List.nil_prefix) (by simp)
    rw [walk, step_name hhere (hnames s List.mem_cons_self)]
    simp only
    rw [ih (fun x hx => hnames x (List.mem_cons_of_mem _ hx)) fun d hd hne => ?_]
    · simp
    · have := hparents (s :: d) (List.cons_prefix_cons.mpr ⟨rfl, hd⟩) (by simpa using hne)
      simpa using this

/-- What is left of a path is followed along its names. -/
theorem locateAs_trail {t : Tree} {p : Place} (working : Place) {path left : String}
    (hnames : ∀ s ∈ p, IsEntryName s)
    (hparents : ∀ d, d <+: p → d ≠ p → t.get? d = some .directory) (hfault : fault? path = none)
    (habsolute : Path.isAbsolute path = true) (hleft : left.toList = trail p) :
    t.locateAs working path left = .ok p := by
  have hsegments : segments left = "" :: p := by
    rw [segments, hleft, Path.segments_trail fun s hs => (hnames s hs).1]
    simp
  have hroot : t.step [] "" = .ok [] := by simp [step]
  rw [locateAs, hfault, origin, if_pos habsolute, hsegments]
  simp only [walk, hroot]
  exact walk_names hnames hparents

/-- A path can be followed if it is not empty, not too long, and has no zero in it. -/
theorem fault?_eq_none {path : String} (hne : path ≠ "") (hzero : Char.ofNat 0 ∉ path.toList)
    (hshort : path.utf8ByteSize < pathLimit) : fault? path = none := by
  rw [fault?, if_neg hne, if_neg (by simpa using hzero), if_neg (Nat.not_le.mpr hshort)]

theorem zero_notMem_trail {p : Place} (h : ∀ s ∈ p, IsEntryName s) : Char.ofNat 0 ∉ trail p := by
  intro hmem
  obtain ⟨s, hs, hzero⟩ := List.mem_flatMap.mp hmem
  rcases List.mem_cons.mp hzero with hslash | hzero
  · exact absurd hslash (by decide)
  · exact (h s hs).2.1 hzero

/-- The path of a place leads there. -/
theorem Reachable.locate_ofNames {t : Tree} {p : Place} (h : t.Reachable p) (hp : p ≠ [])
    (working : Place) : t.locate working (ofNames p) = .ok p := by
  have htoList := Path.toList_ofNames hp
  have hne : ofNames p ≠ "" := by
    intro heq
    rw [heq] at htoList
    obtain ⟨s, ss, rfl⟩ := List.exists_cons_of_ne_nil hp
    simp [trail] at htoList
  have hfault := fault?_eq_none hne (by rw [htoList]; exact zero_notMem_trail h.names) h.short
  exact locateAs_trail working h.names h.parents hfault (Path.isAbsolute_ofNames p) htoList

/-! ## Making directories -/

/-- The path along names with a slash at its end. -/
def slashed (p : Place) : String := String.ofList (trail p ++ ['/'])

/-- The slash at the end of a path along names can be taken off, and there are no others. -/
theorem withoutSlashes_trail {p : Place} (h : ∀ s ∈ p, IsName s) :
    withoutSlashes (String.ofList (trail p)) = String.ofList (trail p) ∧
      withoutSlashes (slashed p) = String.ofList (trail p) := by
  have hdrop : (trail p).reverse.dropWhile (· == '/') = (trail p).reverse := by
    rcases List.eq_nil_or_concat p with rfl | ⟨p, s, rfl⟩
    · rfl
    · obtain ⟨hempty, -, -, hslash⟩ := h s (by simp)
      obtain ⟨u, c, hu⟩ := List.eq_nil_or_concat s.toList |>.resolve_left (by simpa using hempty)
      have hc : c ≠ '/' := by
        rintro rfl
        exact hslash (by simp [hu])
      rw [List.concat_eq_append, Path.trail_concat, hu]
      simp [hc]
  refine ⟨?_, ?_⟩
  · rw [withoutSlashes, String.toList_ofList, hdrop, List.reverse_reverse]
  · rw [withoutSlashes, slashed, String.toList_ofList, List.reverse_append]
    simp [hdrop]

theorem utf8ByteSize_ofList_append (s t : List Char) :
    (String.ofList (s ++ t)).utf8ByteSize =
      (String.ofList s).utf8ByteSize + (String.ofList t).utf8ByteSize := by
  rw [String.ofList_append, String.utf8ByteSize_append]

/-- A path is not longer than the path of a place that it is on the way to. -/
theorem size_slashed_le {p rest : Place} (hrest : rest ≠ []) :
    (slashed p).utf8ByteSize ≤ (ofNames (p ++ rest)).utf8ByteSize := by
  obtain ⟨s, rest, rfl⟩ := List.exists_cons_of_ne_nil hrest
  have hpath : ofNames (p ++ s :: rest) =
      String.ofList (trail p ++ ['/'] ++ (s.toList ++ trail rest)) := by
    apply String.toList_inj.mp
    rw [Path.toList_ofNames (by simp), String.toList_ofList]
    simp [trail]
  rw [hpath, utf8ByteSize_ofList_append, slashed]
  exact Nat.le_add_right _ _

theorem size_ofNames_le {p : Place} (hp : p ≠ []) (rest : Place) :
    (ofNames p).utf8ByteSize ≤ (ofNames (p ++ rest)).utf8ByteSize := by
  have hpath {q : Place} (hq : q ≠ []) : ofNames q = String.ofList (trail q) :=
    String.toList_inj.mp (by rw [String.toList_ofList, Path.toList_ofNames hq])
  have happend : trail (p ++ rest) = trail p ++ trail rest := List.flatMap_append
  rw [hpath hp, hpath (by simp [hp]), happend, utf8ByteSize_ofList_append]
  exact Nat.le_add_right _ _

/-- A directory that is there is not made. -/
theorem makeDirectory_slashed {t : Tree} {p rest : Place} (h : t.Reachable (p ++ rest))
    (hrest : rest ≠ []) (working : Place) : t.makeDirectory working (slashed p) = .ok t := by
  have hnames : ∀ s ∈ p, IsEntryName s := fun s hs => h.names s (by simp [hs])
  have hdirectory {d : Place} (hd : d <+: p) : t.get? d = some .directory := by
    refine h.parents d (hd.trans (List.prefix_append _ _)) ?_
    rintro rfl
    have hlength := hd.length_le
    rw [List.length_append] at hlength
    have hpos := List.length_pos_iff.mpr hrest
    omega
  have hzero : Char.ofNat 0 ∉ (slashed p).toList := by
    rw [slashed, String.toList_ofList, List.mem_append, not_or]
    exact ⟨zero_notMem_trail hnames, by decide⟩
  have hne : slashed p ≠ "" := by
    intro heq
    have := congrArg String.toList heq
    simp [slashed] at this
  have habsolute : Path.isAbsolute (slashed p) = true := by
    rw [Path.isAbsolute, slashed, String.toList_ofList]
    cases p <;> simp [trail]
  have hlocate : t.locateBare working (slashed p) = .ok p := by
    refine locateAs_trail working hnames (fun d hd _ => hdirectory hd)
      (fault?_eq_none hne hzero (Nat.lt_of_le_of_lt (size_slashed_le hrest) h.short)) habsolute ?_
    rw [(withoutSlashes_trail fun s hs => (hnames s hs).1).2, String.toList_ofList]
  simp only [makeDirectory, hlocate, hdirectory (List.prefix_refl p)]

/-- Only the last directory on the way to a place can be missing. -/
theorem foldlM_waypoints {t : Tree} (working : Place) {p rest : Place} (h : t.Reachable (p ++ rest))
    (hrest : rest ≠ []) :
    (waypoints (slashed p) rest).foldlM (fun t path => t.makeDirectory working path) t =
      t.makeDirectory working (String.ofList (trail (p ++ rest))) := by
  induction rest generalizing p with
  | nil => exact absurd rfl hrest
  | cons s rest ih =>
    have hnext : slashed p ++ s = String.ofList (trail (p ++ [s])) := by
      apply String.toList_inj.mp
      simp [slashed, Path.trail_concat]
    cases rest with
    | nil =>
      rw [waypoints, hnext, List.foldlM_cons]
      cases t.makeDirectory working (String.ofList (trail (p ++ [s]))) <;> rfl
    | cons s' rest =>
      have h' : t.Reachable (p ++ [s] ++ (s' :: rest)) := by simpa using h
      have hslashed : slashed p ++ s ++ "/" = slashed (p ++ [s]) := by
        apply String.toList_inj.mp
        simp [slashed, Path.trail_concat]
      rw [waypoints, hslashed, List.foldlM_cons, makeDirectory_slashed h' (by simp)]
      · have hrec := ih h' (by simp)
        rw [List.append_assoc] at hrec
        exact hrec
      · simp

/-- Making a directory whose place is free or a directory already. -/
theorem makeDirectories_ofNames {t : Tree} (working : Place) {p : Place} (h : t.Reachable p)
    (hp : p ≠ []) (hfree : t.get? p = none ∨ t.get? p = some .directory) :
    t.makeDirectories working (ofNames p) =
      .ok (if t.get? p = none then t.put p .directory else t) := by
  have hsegments : segments (ofNames p) = "" :: p := by
    rw [segments, Path.toList_ofNames hp, Path.segments_trail h.isName]
    simp
  have hroot : "" ++ "" ++ "/" = slashed [] := rfl
  have hwaypoints : waypoints "" ("" :: p) = slashed [] :: waypoints (slashed []) p := by
    obtain ⟨s, ss, rfl⟩ := List.exists_cons_of_ne_nil hp
    rw [waypoints, hroot]
    simp
  have hlast : t.makeDirectory working (String.ofList (trail p)) =
      .ok (if t.get? p = none then t.put p .directory else t) := by
    have hpath : String.ofList (trail p) = ofNames p :=
      String.toList_inj.mp (by rw [String.toList_ofList, Path.toList_ofNames hp])
    have hlocate : t.locateBare working (ofNames p) = .ok p := by
      rw [locateBare, ← hpath, (withoutSlashes_trail h.isName).1, hpath]
      exact h.locate_ofNames hp working
    rw [hpath]
    simp only [makeDirectory, hlocate]
    rcases hfree with hnone | hdirectory
    · simp [hnone]
    · simp [hdirectory]
  have h' : t.Reachable ([] ++ p) := h
  rw [makeDirectories, hsegments, hwaypoints, List.foldlM_cons, makeDirectory_slashed h' hp]
  exact (foldlM_waypoints working h' hp).trans hlast

end Contour.Files.Tree
