import Mathlib.Data.List.Induction

/-!
# The latest event that matters

A history is a list of events, the first one first. To a value that is kept, an event can give a new
content, or take its content away, or do nothing. `Latest effect history a` says that the value has
the content `a` after a history: some event gave it, and none of the later ones did anything. Read
from the end of the history, this is one step of the value at a time (`latest_concat`). Values that
are kept under keys are each on their own: taking one out leaves the others (`find?_filter_key`).
-/

namespace Contour

variable {ε α : Type}

/-- The latest event with an effect gave the content `a`. An event has the effect `some (some a)` if
it gives the content `a`, `some none` if it takes the content away, and `none` if it does
nothing. -/
def Latest (effect : ε → Option (Option α)) (history : List ε) (a : α) : Prop :=
  ∃ before e later, history = before ++ e :: later ∧ effect e = some (some a) ∧
    ∀ e' ∈ later, effect e' = none

variable {effect : ε → Option (Option α)}

theorem not_latest_nil {a : α} : ¬ Latest effect [] a := by
  rintro ⟨before, e, later, h, -⟩
  simp at h

theorem latest_concat {history : List ε} {e : ε} {a : α} :
    Latest effect (history ++ [e]) a ↔
      effect e = some (some a) ∨ (effect e = none ∧ Latest effect history a) := by
  constructor
  · rintro ⟨before, e', later, hsplit, hgives, hlater⟩
    rcases List.eq_nil_or_concat later with rfl | ⟨later, last, rfl⟩
    · obtain ⟨-, heq⟩ := List.append_inj' hsplit rfl
      cases heq
      exact .inl hgives
    · rw [List.concat_eq_append, ← List.cons_append, ← List.append_assoc] at hsplit
      obtain ⟨rfl, heq⟩ := List.append_inj' hsplit rfl
      cases heq
      rw [List.concat_eq_append] at hlater
      exact .inr ⟨hlater e (by simp), before, e', later, rfl, hgives,
        fun x hx => hlater x (by simp [hx])⟩
  · rintro (hgives | ⟨hidle, before, e', later, rfl, hgives, hlater⟩)
    · exact ⟨history, e, [], rfl, hgives, by simp⟩
    · refine ⟨before, e', later ++ [e], by simp, hgives, ?_⟩
      intro x hx
      rcases List.mem_append.mp hx with hx | hx
      · exact hlater x hx
      · rw [List.mem_singleton.mp hx]
        exact hidle

/-- Without the value of one key, those of other keys are still found. -/
theorem find?_filter_key (key : α → String) (values : List α) (removed wanted : String) :
    (values.filter (key · != removed)).find? (key · == wanted) =
      if removed = wanted then none else values.find? (key · == wanted) := by
  rw [List.find?_filter]
  by_cases h : removed = wanted
  · simp [h]
  · rw [if_neg h]
    congr 1
    funext v
    by_cases hv : key v = wanted
    · simp [hv, Ne.symm h]
    · simp [hv]

end Contour
