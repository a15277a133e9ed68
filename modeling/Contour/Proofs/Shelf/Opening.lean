import Contour.Proofs.Files.Host
import Contour.Proofs.Shelf.Storage
import Mathlib.Data.List.TakeWhile

/-!
# Opening a shelf in a workspace

A path that starts at the root and has no question mark in it names the file at that path
(`ofPath_of_bare`). If the directory of the file is there or can be made, and the file is missing or
holds rows, then opening the shelf gives these rows and leaves a file that holds them
(`openAt_eq_ok`), and saving a shelf replaces them (`save_eq_ok`).
-/

namespace Contour.Shelf

open Files
open Contour.Path (IsName ofNames)

/-! ## Locations -/

namespace Location

theorem splitPath_of_bare {s : List Char} (h : '?' ∉ s) : splitPath s = (s, []) := by
  have htake : ∀ c ∈ s, (c != '?') = true := by
    intro c hc
    have hne : c ≠ '?' := by
      rintro rfl
      exact h hc
    simpa using hne
  have hhead : s.head? ≠ some '?' := fun hs => h (List.mem_of_head? hs)
  rw [splitPath, if_neg hhead, Text.cut, List.takeWhile_eq_self_iff.mpr htake,
    List.dropWhile_eq_nil_iff.mpr htake]
  rfl

theorem parameters_nil : parameters [] = .ok [] := rfl

/-- A path without parameters is checked. -/
theorem checkPath_of_bare {path : String} (h : '?' ∉ path.toList) : checkPath path = .ok () := by
  rw [checkPath, splitPath_of_bare h, parameters_nil]
  decide +kernel

/-- An absolute path without parameters names the file at the path. -/
theorem ofPath_of_bare {path : String} (habsolute : Path.isAbsolute path = true)
    (hbare : '?' ∉ path.toList) (hzero : Char.ofNat 0 ∉ path.toList) :
    ofPath path = .ok { file := some path } := by
  obtain ⟨rest, hrest⟩ : ∃ rest, path.toList = '/' :: rest := by
    rw [Path.isAbsolute, beq_iff_eq] at habsolute
    exact ⟨_, List.eq_cons_of_mem_head? habsolute⟩
  have hscheme : afterScheme? path.toList = none := by
    rw [hrest]
    rfl
  have huntil : String.ofList (untilZero path.toList) = path := by
    rw [untilZero, List.takeWhile_eq_self_iff.mpr, String.ofList_toList]
    intro c hc
    have hne : c ≠ Char.ofNat 0 := by
      rintro rfl
      exact hzero hc
    simpa [← Char.toNat_inj] using hne
  have hne : path ≠ "" ∧ path ≠ ":memory:" := by
    constructor <;> rintro rfl <;> cases hrest
  have hsystem : system? [] = .ok none := rfl
  have hknown : fileSystems.contains "unix" = true := by decide +kernel
  have hother : ("unix" != memorySystem) = true := by decide +kernel
  simp only [ofPath, splitPath_of_bare hbare, parameters_nil, hscheme, huntil]
  show ofAddress { path := path } = _
  simp only [ofAddress, hknown, hother]
  simp [hne]

end Location

/-! ## Places -/

/-- The file of a shelf is missing, or it holds rows. -/
def Holds (t : Tree) (p : Place) (rows : List Row) : Prop :=
  (t.get? p = none ∧ rows = []) ∨
    ∃ bytes, t.get? p = some (.file bytes) ∧ ofBytes? bytes = some rows

theorem Holds.ne_directory {t : Tree} {p : Place} {rows : List Row} (h : Holds t p rows) :
    t.get? p ≠ some .directory ∧ t.get? p ≠ some .sink := by
  rcases h with ⟨hnone, -⟩ | ⟨bytes, hfile, -⟩
  · simp [hnone]
  · simp [hfile]

/-- The shelf in the file `s` of the directory `d` can be opened: the path can be followed and has
no parameters, the directory is there or can be made, and the file is missing or holds rows. -/
structure Ready (t : Tree) (d : Place) (s : String) (rows : List Row) : Prop where
  names : ∀ x ∈ d ++ [s], Tree.IsEntryName x
  bare : ∀ x ∈ d ++ [s], '?' ∉ x.toList
  short : (ofNames (d ++ [s])).utf8ByteSize < Tree.pathLimit
  parents : ∀ e, e <+: d → e ≠ d → t.get? e = some .directory
  folder : t.get? d = none ∨ t.get? d = some .directory
  file : Holds t (d ++ [s]) rows

/-- A tree after the shelf was opened in it: the directory is there, the file holds the rows, and
nothing else has changed. -/
structure Opened (t t' : Tree) (d : Place) (s : String) (rows : List Row) : Prop where
  folder : t'.get? d = some .directory
  file : ∃ bytes, t'.get? (d ++ [s]) = some (.file bytes) ∧ ofBytes? bytes = some rows
  other : ∀ q, q ≠ d → q ≠ d ++ [s] → t'.get? q = t.get? q

namespace Ready

variable {t : Tree} {d : Place} {s : String} {rows : List Row}

theorem keeps_of_opened (h : Ready t d s rows) {t' : Tree} {rows' : List Row}
    (h' : Opened t t' d s rows') : t.Keeps t' := by
  intro q hq
  by_cases hd : q = d
  · exact hd ▸ h'.folder
  · by_cases hp : q = d ++ [s]
    · subst hp
      exact absurd hq h.file.ne_directory.1
    · rw [h'.other q hd hp, hq]

/-- A shelf that was opened can be opened again. -/
theorem of_opened (h : Ready t d s rows) {t' : Tree} {rows' : List Row}
    (h' : Opened t t' d s rows') : Ready t' d s rows' :=
  ⟨h.names, h.bare, h.short, fun e he hne => h.keeps_of_opened h' e (h.parents e he hne),
    .inr h'.folder, .inr h'.file⟩

theorem notMem_path {d : Place} {s : String} {c : Char} (hc : c ≠ '/')
    (hnames : ∀ x ∈ d ++ [s], c ∉ x.toList) : c ∉ (ofNames (d ++ [s])).toList := by
  rw [Path.toList_ofNames (by simp)]
  intro hmem
  obtain ⟨x, hx, hcx⟩ := List.mem_flatMap.mp hmem
  rcases List.mem_cons.mp hcx with rfl | hcx
  · exact hc rfl
  · exact hnames x hx hcx

theorem checkPath_eq (h : Ready t d s rows) : Location.checkPath (ofNames (d ++ [s])) = .ok () :=
  Location.checkPath_of_bare (notMem_path (by decide) h.bare)

theorem ofPath_eq (h : Ready t d s rows) :
    Location.ofPath (ofNames (d ++ [s])) = .ok { file := some (ofNames (d ++ [s])) } :=
  Location.ofPath_of_bare (Path.isAbsolute_ofNames _) (notMem_path (by decide) h.bare)
    (notMem_path (by decide) fun x hx => (h.names x hx).2.1)

theorem isName_folder (h : Ready t d s rows) : ∀ x ∈ d, IsName x :=
  fun x hx => (h.names x (by simp [hx])).1

theorem reachable_folder (h : Ready t d s rows) (hd : d ≠ []) : t.Reachable d :=
  ⟨fun x hx => h.names x (by simp [hx]), Nat.lt_of_le_of_lt (Tree.size_ofNames_le hd [s]) h.short,
    h.parents⟩

theorem reachable_file (h : Ready t d s rows) (hfolder : t.get? d = some .directory) :
    t.Reachable (d ++ [s]) := by
  refine ⟨h.names, h.short, fun e he hne => ?_⟩
  rcases List.prefix_concat_iff.mp he with rfl | he
  · exact absurd rfl hne
  · by_cases hd : e = d
    · exact hd ▸ hfolder
    · exact h.parents e he hd

theorem endsInSlash_eq (h : Ready t d s rows) : Tree.endsInSlash (ofNames (d ++ [s])) = false := by
  obtain ⟨hempty, -, -, hslash⟩ := (h.names s (by simp)).1
  obtain ⟨u, c, hu⟩ := List.eq_nil_or_concat s.toList |>.resolve_left (by simpa using hempty)
  have hc : c ≠ '/' := by
    rintro rfl
    exact hslash (by simp [hu])
  rw [Tree.endsInSlash, Path.ofNames_concat, hu, List.concat_eq_append, ← List.cons_append,
    ← List.append_assoc, List.getLast?_concat]
  simpa using hc

/-- The path of the shelf leads to its file. -/
theorem target_eq (h : Ready t d s rows) (hfolder : t.get? d = some .directory) (working : Place) :
    t.locate working (ofNames (d ++ [s])) = .ok (d ++ [s]) ∧
      t.target working (ofNames (d ++ [s])) = .ok (d ++ [s]) := by
  have hlocate := (h.reachable_file hfolder).locate_ofNames (by simp) working
  exact ⟨hlocate, Tree.target_eq_ok_iff.mpr ⟨h.endsInSlash_eq, hlocate, h.file.ne_directory.1⟩⟩

end Ready

/-! ## Opening and saving -/

section

variable {w : Workspace} {d : Place} {s : String} {rows : List Row}

/-- Saving a shelf replaces the rows in its file. -/
theorem save_eq_ok (h : Ready w.tree d s rows) (hfolder : w.tree.get? d = some .directory)
    (shelf : Shelf) :
    (save Workspace.host (ofNames (d ++ [s])) shelf).run w =
      (.ok (), { w with tree := w.tree.put (d ++ [s]) (.file (toBytes shelf.rows)) }) := by
  rw [save, h.ofPath_eq]
  exact Workspace.host_write (h.target_eq hfolder w.working).2 h.file.ne_directory.2 _

/-- The tree after saving. -/
theorem opened_put (hfolder : w.tree.get? d = some .directory) (rows : List Row) :
    Opened w.tree (w.tree.put (d ++ [s]) (.file (toBytes rows))) d s rows := by
  have hput := Tree.get?_put w.tree (p := d ++ [s]) (by simp) (.file (toBytes rows))
  refine ⟨?_, ⟨_, by rw [hput, if_pos rfl], ofBytes?_toBytes rows⟩, fun q _ hq => ?_⟩
  · rw [hput, if_neg (by simp), hfolder]
  · rw [hput, if_neg hq]

theorem Opened.trans {t t' t'' : Tree} {rows' : List Row} (h : Opened t t' d s rows)
    (h' : Opened t' t'' d s rows') : Opened t t'' d s rows' :=
  ⟨h'.folder, h'.file, fun q hd hp => (h'.other q hd hp).trans (h.other q hd hp)⟩

/-- The file of a shelf is there after it was looked for. -/
theorem reach_eq_ok (h : Ready w.tree d s rows) (hfolder : w.tree.get? d = some .directory) :
    ∃ bytes t, (reach Workspace.host { file := some (ofNames (d ++ [s])) }
        (ofNames (d ++ [s]))).run w = (.ok bytes, { w with tree := t }) ∧
      t.get? (d ++ [s]) = some (.file bytes) ∧ ofBytes? bytes = some rows ∧
      Opened w.tree t d s rows := by
  obtain ⟨hlocate, htarget⟩ := h.target_eq hfolder w.working
  rcases h.file with ⟨hnone, rfl⟩ | ⟨bytes, hfile, hrows⟩
  · have hread : (Workspace.host.read (ofNames (d ++ [s]))).run w =
        (.error ⟨.opening, ofNames (d ++ [s]), .missing⟩, w) := by
      show (w.tree.read w.working (ofNames (d ++ [s])), w) = _
      simp only [Tree.read, hlocate, hnone]
    have hput := Tree.get?_put w.tree (p := d ++ [s]) (by simp) (.file [])
    have hfile : (w.tree.put (d ++ [s]) (.file [])).get? (d ++ [s]) = some (.file []) := by
      rw [hput, if_pos rfl]
    refine ⟨[], w.tree.put (d ++ [s]) (.file []), ?_, hfile, rfl, ?_, ⟨[], hfile, rfl⟩, ?_⟩
    · rw [reach, Workspace.run_bind_of_eq hread]
      exact Workspace.run_bind_of_eq (Workspace.host_write htarget h.file.ne_directory.2 [])
    · rw [hput, if_neg (by simp), hfolder]
    · intro q _ hq
      rw [hput, if_neg hq]
  · have hread : (Workspace.host.read (ofNames (d ++ [s]))).run w = (.ok bytes, w) := by
      show (w.tree.read w.working (ofNames (d ++ [s])), w) = _
      rw [Tree.read_eq_ok_of_file hlocate hfile]
    refine ⟨bytes, w.tree, ?_, hfile, hrows, hfolder, ⟨bytes, hfile, hrows⟩, fun _ _ _ => rfl⟩
    rw [reach, Workspace.run_bind_of_eq hread]
    rfl

theorem openLocation_eq_ok (h : Ready w.tree d s rows) (hfolder : w.tree.get? d = some .directory) :
    ∃ t, (openLocation Workspace.host (ofNames (d ++ [s]))
        { file := some (ofNames (d ++ [s])) }).run w = (.ok { rows }, { w with tree := t }) ∧
      Opened w.tree t d s rows := by
  obtain ⟨bytes, t, hreach, hfile, hrows, hopened⟩ := reach_eq_ok h hfolder
  have hshelf : shelfIn { file := some (ofNames (d ++ [s])) } bytes = .ok { rows } := by
    simp [shelfIn, hrows]
  have hresult : ((do
      let bytes ← (.ok bytes : Except OpenError (List UInt8))
      (Location.checkPath (ofNames (d ++ [s]))).mapError .location
      shelfIn { file := some (ofNames (d ++ [s])) } bytes) : Except OpenError Shelf) =
      .ok { rows } := by
    rw [h.checkPath_eq]
    exact hshelf
  rw [openLocation, Workspace.run_bind_of_eq hreach]
  simp only [hresult]
  cases bytes with
  | cons b bs => exact ⟨t, rfl, hopened⟩
  | nil =>
    -- an empty file is given its mark
    have hready : Ready ({ w with tree := t } : Workspace).tree d s rows := h.of_opened hopened
    refine ⟨_, ?_, hopened.trans (opened_put (w := { w with tree := t }) hopened.folder rows)⟩
    exact Workspace.run_bind_of_eq (save_eq_ok hready hopened.folder { rows })

/-- The tree after the directory of a shelf was made. -/
theorem Ready.makeDirectory {t : Tree} (h : Ready t d s rows) (hd : d ≠ []) (working : Place) :
    ∃ t', t.makeDirectories working (ofNames d) = .ok t' ∧ t'.get? d = some .directory ∧
      Ready t' d s rows ∧ ∀ q, q ≠ d → t'.get? q = t.get? q := by
  have hmade := Tree.makeDirectories_ofNames working (h.reachable_folder hd) hd h.folder
  rcases h.folder with hnone | hfolder
  · have hput := Tree.get?_put t hd .directory
    have hother : ∀ q, q ≠ d → (t.put d .directory).get? q = t.get? q := by
      intro q hq
      rw [hput, if_neg hq]
    rw [if_pos hnone] at hmade
    refine ⟨_, hmade, by rw [hput, if_pos rfl], ?_, hother⟩
    refine ⟨h.names, h.bare, h.short, fun e he hne => ?_, .inr (by rw [hput, if_pos rfl]), ?_⟩
    · rw [hother e hne, h.parents e he hne]
    · rw [Holds, hother _ (by simp)]
      exact h.file
  · rw [if_neg (by simp [hfolder])] at hmade
    exact ⟨t, hmade, hfolder, h, fun _ _ => rfl⟩

/-- A shelf that is ready is opened with its rows. -/
theorem openAt_eq_ok (h : Ready w.tree d s rows) (hd : d ≠ []) :
    ∃ t, (openAt Workspace.host (ofNames (d ++ [s]))).run w = (.ok { rows }, { w with tree := t }) ∧
      Opened w.tree t d s rows := by
  have hdirectory : Path.directory (ofNames (d ++ [s])) = ofNames d :=
    Path.directory_ofNames h.isName_folder (h.names s (by simp)).1
  obtain ⟨t, hmade, hfolder, hready, hother⟩ := h.makeDirectory hd w.working
  have hrun : (Workspace.host.makeDirectories (ofNames d)).run w =
      (.ok (), { w with tree := t }) :=
    Workspace.change_of_ok (f := fun t working => t.makeDirectories working (ofNames d)) hmade
  obtain ⟨t', hopen, hopened⟩ := openLocation_eq_ok (w := { w with tree := t }) hready hfolder
  refine ⟨t', ?_, hopened.folder, hopened.file, fun q hqd hqp => ?_⟩
  · rw [openAt, hdirectory, Workspace.run_bind_of_eq hrun, h.ofPath_eq]
    exact hopen
  · rw [hopened.other q hqd hqp, hother q hqd]

end

end Contour.Shelf
