import Contour.Proofs.Settings.Nearest

/-!
# Settings without a configuration

A workspace is plain if its working directory is there under ordinary names, and if there is no
configuration file in it or above it. In such a workspace the default settings count
(`forCommand_of_isPlain`).
-/

namespace Contour.Files

/-- A workspace whose working directory can be found, with no configuration in it or above it. -/
structure Workspace.IsPlain (w : Workspace) : Prop where
  names : ∀ s ∈ w.working, Tree.IsEntryName s
  directories : ∀ d, d <+: w.working → w.tree.get? d = some .directory
  unconfigured : ∀ d, d <+: w.working → w.tree.get? (d ++ [Settings.configurationName]) = none

/-- A workspace stays plain as long as its directories stay and no configuration comes. -/
theorem Workspace.IsPlain.of_keeps {w w' : Workspace} (h : w.IsPlain)
    (hworking : w'.working = w.working) (hkeeps : w.tree.Keeps w'.tree)
    (hsame : ∀ d, d <+: w.working → w'.tree.get? (d ++ [Settings.configurationName]) =
      w.tree.get? (d ++ [Settings.configurationName])) : w'.IsPlain := by
  refine ⟨fun s hs => h.names s (hworking ▸ hs), fun d hd => ?_, fun d hd => ?_⟩
  · exact hkeeps d (h.directories d (hworking ▸ hd))
  · rw [hsame d (hworking ▸ hd), h.unconfigured d (hworking ▸ hd)]

end Contour.Files

namespace Contour.Settings

open Files
open Contour.Path (IsName ofNames)

theorem nearest_of_isPlain {w : Workspace} (h : w.IsPlain) :
    (nearest Workspace.host (ofNames w.working)).run w = (.ok none, w) := by
  have hnames : ∀ s ∈ w.working, IsName s := fun s hs => (h.names s hs).1
  have hnone : ∀ d, d <+: w.working → ¬w.tree.HasConfiguration d := by
    intro d hd hconfigured
    simpa [h.unconfigured d hd] using hconfigured.2
  rw [run_nearest, Path.absolute_ofNames _ hnames, (find?_ancestors_eq_none_iff hnames).mpr hnone]

/-- In a plain workspace the default settings count. -/
theorem forCommand_of_isPlain {w : Workspace} (h : w.IsPlain) :
    (forCommand Workspace.host "").run w = (.ok (default (ofNames w.working)), w) := by
  rw [forCommand, if_neg (not_not_intro rfl), Workspace.run_bind_of_eq (workingDirectory_eq w),
    Workspace.run_bind_of_eq (nearest_of_isPlain h)]
  rfl

end Contour.Settings
