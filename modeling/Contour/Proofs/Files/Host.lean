import Contour.Files.Host
import Contour.Proofs.Files.Tree

/-!
# Running in a workspace

One action after another (`run_bind_of_eq`), and what the actions of a workspace do to it: writing a
file and making directories change its tree, and nothing else.
-/

namespace Contour.Files.Workspace

variable {α β : Type}

/-- An action goes on with what the one before it gave, in the workspace that it left. -/
theorem run_bind_of_eq {x : StateM Workspace α} {f : α → StateM Workspace β} {w w' : Workspace}
    {a : α} (h : x.run w = (a, w')) : (x >>= f).run w = (f a).run w' := by
  rw [StateT.run_bind, h]
  rfl

theorem change_of_ok {f : Tree → Place → Except Failure Tree} {w : Workspace} {t : Tree}
    (h : f w.tree w.working = .ok t) : (change f).run w = (.ok (), { w with tree := t }) := by
  have hget : (get : StateM Workspace Workspace).run w = (w, w) := rfl
  rw [change, run_bind_of_eq hget, h]
  rfl

theorem host_write {w : Workspace} {path : String} {p : Place}
    (h : w.tree.target w.working path = .ok p) (hsink : w.tree.get? p ≠ some .sink)
    (bytes : List UInt8) :
    (host.write path bytes).run w = (.ok (), { w with tree := w.tree.put p (.file bytes) }) :=
  change_of_ok (f := fun t working => t.write working path bytes) (Tree.write_eq h hsink bytes)

end Contour.Files.Workspace
