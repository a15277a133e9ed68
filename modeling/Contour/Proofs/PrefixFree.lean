import Mathlib.Logic.Function.Basic

/-!
# Writers whose output ends where it ends

A writer is prefix-free if its output for a value is not empty and shows where it ends, whatever
follows it. A list that is written by such a writer, one value after another, is determined by what
is written (`flatMap_injective`). A writer is prefix-free if there is a reader for it (`of_read`),
and if its outputs are different and all of one length (`of_length`).
-/

namespace Contour

variable {α β : Type}

/-- The output for a value is not empty and does not need what follows it to be told apart from the
outputs for other values. -/
structure PrefixFree (write : α → List β) : Prop where
  ne_nil (a : α) : write a ≠ []
  inj {a b : α} {s t : List β} : write a ++ s = write b ++ t → a = b ∧ s = t

namespace PrefixFree

variable {write : α → List β}

theorem of_read (read : List β → Option (α × List β)) (hne : ∀ a, write a ≠ [])
    (hread : ∀ a rest, read (write a ++ rest) = some (a, rest)) : PrefixFree write where
  ne_nil := hne
  inj {a b s t} h := by
    have hsome : some (a, s) = some (b, t) := by rw [← hread, ← hread, h]
    simpa using hsome

theorem of_length {n : Nat} (hpos : 0 < n) (hlength : ∀ a, (write a).length = n)
    (hinj : Function.Injective write) : PrefixFree write where
  ne_nil a := List.ne_nil_of_length_pos (by rw [hlength]; exact hpos)
  inj {a b s t} h := by
    obtain ⟨hwrite, hrest⟩ := List.append_inj h (by rw [hlength, hlength])
    exact ⟨hinj hwrite, hrest⟩

theorem flatMap_injective (hfree : PrefixFree write) : Function.Injective (List.flatMap write) := by
  intro as
  induction as with
  | nil =>
    intro bs h
    cases bs with
    | nil => rfl
    | cons b bs => exact absurd (List.append_eq_nil_iff.mp h.symm).1 (hfree.ne_nil b)
  | cons a as ih =>
    intro bs h
    cases bs with
    | nil => exact absurd (List.append_eq_nil_iff.mp h).1 (hfree.ne_nil a)
    | cons b bs =>
      obtain ⟨rfl, hrest⟩ := hfree.inj h
      rw [ih hrest]

end PrefixFree

end Contour
