import Contour.DeltaFile.Text
import Contour.Proofs.Assembly.Grammar

/-!
# The first pair of numbers on a line

A pair on a line is two numbers with separators between them, each an optional dash and a run of
digits that is as long as possible (`IsPair`). The first pair is the one with the shortest text
before it (`IsFirstPair`):

* `number?_eq_some_iff`, `pairAt?_eq_some_iff`: whether a text starts with a number, or with a pair,
  by the parts of the text and not by how they are found;
* `pair?_eq_some_iff`, `pair?_eq_none_iff`: the search for a pair finds the first one, and it fails
  only if there is none. It passes over the digits of a run in which no pair starts, since a pair
  would have to take the whole run;
* `pair?_append_of_not_isDigit`: what ends a line and is no digit changes nothing.
-/

namespace Contour.DeltaFile.Text

open Assembly (IsDigits Writes)

/-! ## Numbers -/

/-- An optional dash and some digits. -/
inductive IsNumber : List Char → Prop where
  | plain {s : List Char} (h : IsDigits s) : IsNumber s
  | negative {s : List Char} (h : IsDigits s) : IsNumber ('-' :: s)

theorem IsNumber.ne_nil {s : List Char} (h : IsNumber s) : s ≠ [] := by
  cases h with
  | plain h => exact h.1
  | negative h => exact List.cons_ne_nil _ _

/-- Every number has a value. -/
theorem IsNumber.exists_writes {s : List Char} (h : IsNumber s) : ∃ n, Writes s (some n) := by
  cases h with
  | plain h => exact ⟨_, .plain h⟩
  | negative h => exact ⟨_, .minus h⟩

/-- No separator stands at the start of a number. -/
theorem IsNumber.isSeparator_head {s : List Char} (h : IsNumber s) :
    ∀ c ∈ s.head?, isSeparator c = false := by
  intro c hc
  cases h with
  | plain h => simp [isSeparator, h.2 c (List.mem_of_mem_head? hc)]
  | negative h =>
    cases hc
    decide

theorem isSeparator_iff {c : Char} : isSeparator c = true ↔ c.isDigit = false ∧ c ≠ '-' := by
  simp [isSeparator]

/-- A run of digits ends where another character starts. -/
theorem takeWhile_isDigit_iff {s digits rest : List Char} :
    digits ≠ [] ∧ s.takeWhile Char.isDigit = digits ∧ s.dropWhile Char.isDigit = rest ↔
      s = digits ++ rest ∧ IsDigits digits ∧ ∀ c ∈ rest.head?, c.isDigit = false := by
  constructor
  · rintro ⟨hne, rfl, rfl⟩
    refine ⟨List.takeWhile_append_dropWhile.symm, ⟨hne, fun c hc => List.mem_takeWhile_imp hc⟩, ?_⟩
    intro c hc
    have hhead := List.head?_dropWhile_not Char.isDigit s
    rw [Option.mem_def.mp hc] at hhead
    exact hhead
  · rintro ⟨rfl, hdigits, hrest⟩
    exact ⟨hdigits.1, Text.takeWhile_dropWhile_append hdigits.2 hrest⟩

/-- Reading a number takes all its digits. -/
theorem number?_eq_some_iff {s a rest : List Char} :
    number? s = some (a, rest) ↔
      s = a ++ rest ∧ IsNumber a ∧ ∀ c ∈ rest.head?, c.isDigit = false := by
  by_cases hdash : ∃ t, s = '-' :: t
  · obtain ⟨t, rfl⟩ := hdash
    have hread : number? ('-' :: t) = some (a, rest) ↔ ∃ digits, a = '-' :: digits ∧
        (digits ≠ [] ∧ t.takeWhile Char.isDigit = digits ∧ t.dropWhile Char.isDigit = rest) := by
      simp only [number?, Option.ite_none_left_eq_some, List.isEmpty_iff, Option.some.injEq,
        Prod.mk.injEq, List.singleton_append]
      constructor
      · rintro ⟨hne, rfl, rfl⟩
        exact ⟨_, rfl, hne, rfl, rfl⟩
      · rintro ⟨_, rfl, hne, rfl, rfl⟩
        exact ⟨hne, rfl, rfl⟩
    rw [hread]
    simp only [takeWhile_isDigit_iff]
    constructor
    · rintro ⟨digits, rfl, rfl, hdigits, hrest⟩
      exact ⟨rfl, .negative hdigits, hrest⟩
    · rintro ⟨hs, ha, hrest⟩
      cases ha with
      | plain h =>
        -- A dash is no digit.
        obtain ⟨c, digits, rfl⟩ := List.exists_cons_of_ne_nil h.1
        obtain ⟨rfl, -⟩ := List.cons.inj hs
        exact absurd (h.2 '-' List.mem_cons_self) (by decide)
      | @negative digits h => exact ⟨digits, rfl, (List.cons.inj hs).2, h, hrest⟩
  · have hread : number? s = some (a, rest) ↔
        (a ≠ [] ∧ s.takeWhile Char.isDigit = a ∧ s.dropWhile Char.isDigit = rest) := by
      rw [number?]
      · simp only [Option.ite_none_left_eq_some, List.isEmpty_iff, Option.some.injEq,
          Prod.mk.injEq, List.nil_append]
        constructor
        · rintro ⟨hne, rfl, rfl⟩
          exact ⟨hne, rfl, rfl⟩
        · rintro ⟨hne, rfl, rfl⟩
          exact ⟨hne, rfl, rfl⟩
      · exact fun t ht => hdash ⟨t, ht⟩
    rw [hread, takeWhile_isDigit_iff]
    constructor
    · rintro ⟨hs, ha, hrest⟩
      exact ⟨hs, .plain ha, hrest⟩
    · rintro ⟨hs, ha, hrest⟩
      cases ha with
      | plain h => exact ⟨hs, h, hrest⟩
      | negative h => exact absurd ⟨_, hs⟩ hdash

/-! ## Pairs -/

/-- A pair of numbers on a line, with the texts before, between and after them. -/
structure IsPair (line before a between b after : List Char) : Prop where
  parts : line = before ++ (a ++ (between ++ (b ++ after)))
  first : IsNumber a
  second : IsNumber b
  /-- Neither run of digits goes on outside its number. -/
  starts : ∀ c ∈ before.getLast?, c.isDigit = true → ∀ d ∈ a.head?, d.isDigit = false
  ends : ∀ c ∈ after.head?, c.isDigit = false
  /-- The numbers are apart. -/
  apart : between ≠ []
  separators : ∀ c ∈ between, c.isDigit = false ∧ c ≠ '-'

/-- The pair with the shortest text before it. -/
structure IsFirstPair (line before a between b after : List Char) : Prop
    extends IsPair line before a between b after where
  shortest : ∀ before' a' between' b' after', IsPair line before' a' between' b' after' →
    before.length ≤ before'.length

/-- A text starts with a pair if it is the parts of one. -/
theorem pairAt?_eq_some_iff {s a b : List Char} :
    pairAt? s = some (a, b) ↔ ∃ between after, IsPair s [] a between b after := by
  constructor
  · intro h
    obtain ⟨⟨a', rest⟩, ha, h⟩ := Option.bind_eq_some_iff.mp h
    simp only [Option.ite_none_left_eq_some, List.isEmpty_iff] at h
    obtain ⟨hne, h⟩ := h
    obtain ⟨⟨b', after⟩, hb, h⟩ := Option.bind_eq_some_iff.mp h
    cases h
    obtain ⟨hs, hfirst, -⟩ := number?_eq_some_iff.mp ha
    obtain ⟨hrest, hsecond, hafter⟩ := number?_eq_some_iff.mp hb
    have hgap : ∀ c ∈ rest.takeWhile isSeparator, c.isDigit = false ∧ c ≠ '-' := fun c hc =>
      isSeparator_iff.mp (List.mem_takeWhile_imp hc)
    refine ⟨_, after, ?_, hfirst, hsecond, by simp, hafter, hne, hgap⟩
    rw [hs, List.nil_append, ← hrest, List.takeWhile_append_dropWhile]
  · rintro ⟨between, after, h⟩
    have hseparators : ∀ c ∈ between, isSeparator c = true := fun c hc =>
      isSeparator_iff.mpr (h.separators c hc)
    have hgap : ∀ c ∈ (between ++ (b ++ after)).head?, c.isDigit = false := fun c hc => by
      rw [List.head?_append_of_ne_nil _ h.apart] at hc
      exact (h.separators c (List.mem_of_mem_head? hc)).1
    have hnumber : ∀ c ∈ (b ++ after).head?, isSeparator c = false := fun c hc => by
      rw [List.head?_append_of_ne_nil _ h.second.ne_nil] at hc
      exact h.second.isSeparator_head c hc
    obtain ⟨htake, hdrop⟩ := Text.takeWhile_dropWhile_append hseparators hnumber
    have hparts : s = a ++ (between ++ (b ++ after)) := h.parts
    have ha := number?_eq_some_iff.mpr ⟨hparts, h.first, hgap⟩
    have hb := number?_eq_some_iff.mpr ⟨rfl, h.second, h.ends⟩
    simp only [pairAt?, ha, Option.bind_eq_bind, Option.bind_some, htake, hdrop, hb,
      List.isEmpty_iff, if_neg h.apart]
    rfl

/-! ## The search -/

/-- The pair stands after the text `before`, and does not start inside a run of digits; `inRun` says
whether a digit stands before the whole text. -/
def StandsAfter (inRun : Bool) (s before : List Char) (pair : List Char × List Char) : Prop :=
  ∃ rest, s = before ++ rest ∧ pairAt? rest = some pair ∧
    (before.getLast?.elim inRun Char.isDigit = true → ∀ c ∈ rest.head?, c.isDigit = false)

theorem standsAfter_iff {line before a b : List Char} :
    StandsAfter false line before (a, b) ↔
      ∃ between after, IsPair line before a between b after := by
  constructor
  · rintro ⟨rest, rfl, hpair, hstart⟩
    obtain ⟨between, after, h⟩ := pairAt?_eq_some_iff.mp hpair
    refine ⟨between, after, ?_, h.first, h.second, fun c hc hdigit d hd => ?_, h.ends, h.apart,
      h.separators⟩
    · rw [h.parts, List.nil_append]
    · refine hstart (by rw [Option.mem_def.mp hc]; exact hdigit) d ?_
      rw [h.parts, List.nil_append, List.head?_append_of_ne_nil _ h.first.ne_nil]
      exact hd
  · rintro ⟨between, after, h⟩
    refine ⟨_, h.parts, pairAt?_eq_some_iff.mpr ⟨between, after, rfl, h.first, h.second, by simp,
      h.ends, h.apart, h.separators⟩, fun hdigit c hc => ?_⟩
    rw [List.head?_append_of_ne_nil _ h.first.ne_nil] at hc
    cases hlast : before.getLast? with
    | none => simp [hlast] at hdigit
    | some d =>
      rw [hlast] at hdigit
      exact h.starts d hlast hdigit c hc

/-- A pair starts at the first character, or stands after it. -/
theorem standsAfter_cons {inRun : Bool} {c : Char} {s before : List Char}
    {pair : List Char × List Char} :
    StandsAfter inRun (c :: s) before pair ↔
      (before = [] ∧ (inRun = true → c.isDigit = false) ∧ pairAt? (c :: s) = some pair) ∨
      ∃ before', before = c :: before' ∧ StandsAfter c.isDigit s before' pair := by
  have hlast (before' : List Char) : (c :: before').getLast?.elim inRun Char.isDigit =
      before'.getLast?.elim c.isDigit Char.isDigit := by
    rw [List.getLast?_cons]
    cases before'.getLast? <;> rfl
  constructor
  · rintro ⟨rest, hs, hpair, hstart⟩
    cases before with
    | nil =>
      obtain rfl : c :: s = rest := hs
      exact .inl ⟨rfl, fun hrun => hstart hrun c rfl, hpair⟩
    | cons d before' =>
      obtain ⟨rfl, rfl⟩ := List.cons.inj hs
      rw [hlast] at hstart
      exact .inr ⟨before', rfl, rest, rfl, hpair, hstart⟩
  · rintro (⟨rfl, hstart, hpair⟩ | ⟨before', rfl, rest, rfl, hpair, hstart⟩)
    · refine ⟨c :: s, rfl, hpair, fun hrun d hd => ?_⟩
      cases hd
      exact hstart hrun
    · exact ⟨rest, rfl, hpair, by rwa [hlast]⟩

/-- Inside a run of digits no pair starts. -/
theorem standsAfter_cons_of_inRun {c : Char} (hc : c.isDigit = true) {s before : List Char}
    {pair : List Char × List Char} :
    StandsAfter true (c :: s) before pair ↔
      ∃ before', before = c :: before' ∧ StandsAfter true s before' pair := by
  rw [standsAfter_cons, hc]
  simp

theorem standsAfter_cons_of_none {inRun : Bool} {c : Char} {s before : List Char}
    {pair : List Char × List Char} (hnone : pairAt? (c :: s) = none) :
    StandsAfter inRun (c :: s) before pair ↔
      ∃ before', before = c :: before' ∧ StandsAfter c.isDigit s before' pair := by
  rw [standsAfter_cons, hnone]
  simp

/-- The pair stands after a text that is as short as possible. -/
def StandsFirst (inRun : Bool) (s : List Char) (pair : List Char × List Char) : Prop :=
  ∃ before, StandsAfter inRun s before pair ∧
    ∀ before' pair', StandsAfter inRun s before' pair' → before.length ≤ before'.length

/-- If no pair starts at the first character, the first pair is the first after it. -/
theorem StandsFirst.cons {inRun inRun' : Bool} {c : Char} {s : List Char}
    {pair : List Char × List Char}
    (hcons : ∀ {before pair}, StandsAfter inRun (c :: s) before pair ↔
      ∃ before', before = c :: before' ∧ StandsAfter inRun' s before' pair)
    (h : StandsFirst inRun' s pair) : StandsFirst inRun (c :: s) pair := by
  obtain ⟨before, hstands, hshortest⟩ := h
  refine ⟨c :: before, hcons.mpr ⟨before, rfl, hstands⟩, fun before' pair' h' => ?_⟩
  obtain ⟨before'', rfl, hlater⟩ := hcons.mp h'
  exact Nat.succ_le_succ (hshortest before'' pair' hlater)

/-- The search finds the first pair. -/
theorem standsFirst_of_firstPair? {inRun : Bool} {s : List Char} {pair : List Char × List Char}
    (h : firstPair? inRun s = some pair) : StandsFirst inRun s pair := by
  fun_induction firstPair? inRun s with
  | case1 inRun => cases h
  | case2 inRun c rest hskip ih =>
    obtain ⟨rfl, hc⟩ := Bool.and_eq_true_iff.mp hskip
    exact (ih h).cons (standsAfter_cons_of_inRun hc)
  | case3 inRun c rest hskip pair' hpair =>
    cases h
    have hstart : inRun = true → c.isDigit = false := fun hrun => by simpa [hrun] using hskip
    exact ⟨[], standsAfter_cons.mpr (.inl ⟨rfl, hstart, hpair⟩), fun _ _ _ => Nat.zero_le _⟩
  | case4 inRun c rest hskip hnone ih => exact (ih h).cons (standsAfter_cons_of_none hnone)

/-- The search fails only if there is no pair. -/
theorem not_standsAfter_of_firstPair? {inRun : Bool} {s : List Char}
    (h : firstPair? inRun s = none) (before : List Char) (pair : List Char × List Char) :
    ¬ StandsAfter inRun s before pair := by
  fun_induction firstPair? inRun s generalizing before with
  | case1 inRun =>
    rintro ⟨rest, hs, hpair, -⟩
    obtain ⟨-, rfl⟩ := List.append_eq_nil_iff.mp hs.symm
    cases hpair
  | case2 inRun c rest hskip ih =>
    obtain ⟨rfl, hc⟩ := Bool.and_eq_true_iff.mp hskip
    rw [standsAfter_cons_of_inRun hc]
    rintro ⟨before', -, hlater⟩
    exact ih h before' hlater
  | case3 inRun c rest hskip pair' hpair => cases h
  | case4 inRun c rest hskip hnone ih =>
    rw [standsAfter_cons_of_none hnone]
    rintro ⟨before', -, hlater⟩
    exact ih h before' hlater

theorem pair?_eq_none_iff {line : List Char} :
    pair? line = none ↔ ∀ before a between b after, ¬ IsPair line before a between b after := by
  constructor
  · intro h before a between b after hpair
    have hstands := standsAfter_iff.mpr ⟨between, after, hpair⟩
    exact not_standsAfter_of_firstPair? h before (a, b) hstands
  · intro h
    refine Option.eq_none_iff_forall_ne_some.mpr fun ⟨a, b⟩ hpair => ?_
    obtain ⟨before, hstands, -⟩ := standsFirst_of_firstPair? hpair
    obtain ⟨between, after, hpair⟩ := standsAfter_iff.mp hstands
    exact h before a between b after hpair

theorem pair?_eq_some_iff {line a b : List Char} :
    pair? line = some (a, b) ↔
      ∃ before between after, IsFirstPair line before a between b after := by
  constructor
  · intro h
    obtain ⟨before, hstands, hshortest⟩ := standsFirst_of_firstPair? h
    obtain ⟨between, after, hpair⟩ := standsAfter_iff.mp hstands
    exact ⟨before, between, after, hpair, fun before' a' between' b' after' h' =>
      hshortest before' (a', b') (standsAfter_iff.mpr ⟨between', after', h'⟩)⟩
  · rintro ⟨before, between, after, h⟩
    have hstands := standsAfter_iff.mpr ⟨between, after, h.toIsPair⟩
    cases hfound : pair? line with
    | none => exact absurd hstands (not_standsAfter_of_firstPair? hfound before (a, b))
    | some pair =>
      -- Both have the shortest text before them, so that they stand at the same place.
      obtain ⟨a', b'⟩ := pair
      obtain ⟨before', hstands', hshortest⟩ := standsFirst_of_firstPair? hfound
      obtain ⟨between', after', h'⟩ := standsAfter_iff.mp hstands'
      have hlength := Nat.le_antisymm (h.shortest _ _ _ _ _ h') (hshortest _ _ hstands)
      obtain ⟨rest, hrest, hpair, -⟩ := hstands
      obtain ⟨rest', hrest', hpair', -⟩ := hstands'
      obtain ⟨-, rfl⟩ := List.append_inj (hrest.symm.trans hrest') hlength
      rw [← hpair, ← hpair']

/-! ## The end of a line -/

theorem IsNumber.isDigit_getLast {s : List Char} (h : IsNumber s) :
    ∀ c ∈ s.getLast?, c.isDigit = true := by
  intro c hc
  cases h with
  | plain h => exact h.2 c (List.mem_of_mem_getLast? hc)
  | @negative s h =>
    rw [List.getLast?_cons_of_ne_nil h.1] at hc
    exact h.2 c (List.mem_of_mem_getLast? hc)

/-- A character at the end of a line that is no digit belongs to no pair. -/
theorem isPair_append_iff {c : Char} (hc : c.isDigit = false)
    {line before a between b after : List Char} :
    IsPair (line ++ [c]) before a between b after ↔
      ∃ after', after = after' ++ [c] ∧ IsPair line before a between b after' := by
  constructor
  · intro h
    have hparts := h.parts
    cases hlast : after.getLast? with
    | none =>
      -- The second number would end the line, and so would a digit.
      obtain rfl := List.getLast?_eq_none_iff.mp hlast
      obtain ⟨d, hd⟩ := Option.ne_none_iff_exists'.mp
        (mt List.getLast?_eq_none_iff.mp h.second.ne_nil)
      have hend := congrArg List.getLast? hparts
      simp only [List.append_nil, List.getLast?_append, List.getLast?_singleton, hd, Option.some_or,
        Option.some.injEq] at hend
      rw [hend, h.second.isDigit_getLast d hd] at hc
      cases hc
    | some d =>
      obtain ⟨after', rfl⟩ := List.getLast?_eq_some_iff.mp hlast
      simp only [← List.append_assoc] at hparts
      obtain ⟨hline, hd⟩ := List.append_inj' hparts rfl
      obtain ⟨rfl, -⟩ := List.cons.inj hd
      simp only [List.append_assoc] at hline
      exact ⟨after', rfl, hline, h.first, h.second, h.starts,
        fun e he => h.ends e (List.mem_head?_append_of_mem_head? he), h.apart, h.separators⟩
  · rintro ⟨after', rfl, h⟩
    refine ⟨by simp [h.parts], h.first, h.second, h.starts, fun e he => ?_, h.apart, h.separators⟩
    cases after' with
    | nil =>
      cases he
      exact hc
    | cons d after' => exact h.ends e he

/-- The end of a line that is no digit changes nothing. -/
theorem pair?_append_of_not_isDigit {c : Char} (hc : c.isDigit = false) (line : List Char) :
    pair? (line ++ [c]) = pair? line := by
  refine Option.ext fun ⟨a, b⟩ => ?_
  rw [pair?_eq_some_iff, pair?_eq_some_iff]
  constructor
  · rintro ⟨before, between, after, h⟩
    obtain ⟨after', -, hpair⟩ := (isPair_append_iff hc).mp h.toIsPair
    exact ⟨before, between, after', hpair, fun _ _ _ _ _ h' =>
      h.shortest _ _ _ _ _ ((isPair_append_iff hc).mpr ⟨_, rfl, h'⟩)⟩
  · rintro ⟨before, between, after, h⟩
    refine ⟨before, between, after ++ [c], (isPair_append_iff hc).mpr ⟨after, rfl, h.toIsPair⟩,
      fun _ _ _ _ _ h' => ?_⟩
    obtain ⟨after', -, hpair⟩ := (isPair_append_iff hc).mp h'
    exact h.shortest _ _ _ _ _ hpair

end Contour.DeltaFile.Text
