import Contour.Outline
import Mathlib.Data.List.Chain
import Mathlib.Data.List.TakeWhile

/-!
# Blocks

The significant lines of a sound outline are nested in blocks. A block of some width is a non-empty
sequence of items, and an item is a line of that width that opens no block, or a line of that width
that opens one, followed by a block of a greater width (`Items`, `Block`).

`settle` is what the scanner does with the widths and the opening marks of the significant lines
alone (`close_scan`). It accepts exactly the lines of such blocks, and the depth that it gives to
a line is the number of the blocks around it (`settle_eq_ok_iff`). The scanner keeps the widths of
the open blocks, of which those that are left are forgotten only when the next line comes; `Spine`
says what may follow while some blocks are open.
-/

namespace Contour.Outline

/-- What blocks are made of: the width of a line, and whether it opens a block. -/
structure Mark where
  width : Nat
  opens : Bool
deriving DecidableEq, Repr

/-- A line in its place: its mark, and the number of blocks around it, the outermost not counted. -/
structure Place extends Mark where
  depth : Nat
deriving DecidableEq, Repr

/-! ## The grammar -/

/-- A sequence of items of a block of a width, with `depth` blocks around them. -/
inductive Items : (depth width : Nat) → List Place → Prop where
  | none {d i : Nat} : Items d i []
  | line {d i : Nat} {rest : List Place} (h : Items d i rest) : Items d i (⟨⟨i, false⟩, d⟩ :: rest)
  | block {d i j : Nat} {inner rest : List Place} (hij : i < j) (hne : inner ≠ [])
      (hinner : Items (d + 1) j inner) (hrest : Items d i rest) :
      Items d i (⟨⟨i, true⟩, d⟩ :: (inner ++ rest))

/-- A block of a width with `depth` blocks around it: a non-empty sequence of items. -/
def Block (depth width : Nat) (lines : List Place) : Prop := lines ≠ [] ∧ Items depth width lines

/-- The first line of a block has its width and its depth. -/
theorem Items.head {d i : Nat} {p : Place} {ps : List Place} (h : Items d i (p :: ps)) :
    p.width = i ∧ p.depth = d := by
  cases h with
  | line => exact ⟨rfl, rfl⟩
  | block => exact ⟨rfl, rfl⟩

/-- No line is inside more blocks than there are lines before it. -/
theorem Items.depth_lt {d i : Nat} {ps : List Place} (h : Items d i ps) :
    ∀ p ∈ ps, p.depth < d + ps.length := by
  induction h with
  | none => simp
  | line _ ih =>
    intro p hp
    rcases List.mem_cons.mp hp with rfl | hp
    · simp
    · have := ih p hp
      simp only [List.length_cons]
      omega
  | block _ _ _ _ ihinner ihrest =>
    intro p hp
    rw [List.mem_cons, List.mem_append] at hp
    simp only [List.length_cons, List.length_append]
    rcases hp with rfl | hp | hp
    · simp
    · have := ihinner p hp
      omega
    · have := ihrest p hp
      omega

/-! ## One line -/

theorem mem_dropWhile_of_zero {levels : List Nat} (h : 0 ∈ levels) (w : Nat) :
    0 ∈ levels.dropWhile (w < ·) := by
  rw [← List.takeWhile_append_dropWhile (p := (w < ·)) (l := levels), List.mem_append] at h
  rcases h with h | h
  · have := List.mem_takeWhile_imp h
    simp at this
  · exact h

/-- How a line is placed: after an opening line it starts a block, and otherwise it closes the
blocks that are wider than it is and goes on with the one of its width. -/
theorem nest_eq_ok_iff {levels : List Nat} (h0 : 0 ∈ levels) {opens : Bool} {w : Nat}
    {levels' : List Nat} :
    nest levels opens w = .ok levels' ↔
      ∃ tail, levels' = w :: tail ∧
        ((opens = true ∧ levels.headD 0 < w ∧ tail = levels) ∨
          (opens = false ∧ ∃ left, levels = left ++ w :: tail ∧ ∀ x ∈ left, w < x)) := by
  constructor
  · intro h
    simp only [nest] at h
    split at h
    · rename_i hdeeper
      cases opens with
      | false => simp at h
      | true =>
        cases h
        exact ⟨levels, rfl, .inl ⟨rfl, hdeeper, rfl⟩⟩
    · cases opens with
      | true => simp at h
      | false =>
        simp only [Bool.false_eq_true, if_false] at h
        split at h
        · rename_i hhead
          cases h
          have hmem := mem_dropWhile_of_zero h0 w
          obtain ⟨x, tail, hdrop⟩ := List.exists_cons_of_ne_nil (List.ne_nil_of_mem hmem)
          rw [hdrop, List.headD_cons] at hhead
          subst hhead
          refine ⟨tail, hdrop, .inr ⟨rfl, levels.takeWhile (x < ·), ?_, ?_⟩⟩
          · rw [← hdrop, List.takeWhile_append_dropWhile]
          · intro y hy
            simpa using List.mem_takeWhile_imp hy
        · cases h
  · rintro ⟨tail, rfl, ⟨rfl, hdeeper, rfl⟩ | ⟨rfl, left, rfl, hleft⟩⟩
    · simp only [nest, if_pos hdeeper, if_true]
    · have htop : ¬ (left ++ w :: tail).headD 0 < w := by
        cases left with
        | nil => simp
        | cons x left =>
          have := hleft x List.mem_cons_self
          simp only [List.cons_append, List.headD_cons]
          omega
      have hdrop : (left ++ w :: tail).dropWhile (w < ·) = w :: tail := by
        rw [List.dropWhile_append_of_pos (by simpa using hleft),
          List.dropWhile_cons_of_neg (by simp)]
      simp only [nest, if_neg htop, Bool.false_eq_true, if_false, hdrop, List.headD_cons, if_true]

/-- A line goes on with the block of its width, whatever wider blocks are open in it. -/
theorem nest_of_open {i : Nat} {levels left : List Nat} (h0 : 0 ∈ i :: levels)
    (hleft : ∀ x ∈ left, i < x) : nest (left ++ i :: levels) false i = .ok (i :: levels) :=
  (nest_eq_ok_iff (List.mem_append_right _ h0)).mpr ⟨levels, rfl, .inr ⟨rfl, left, rfl, hleft⟩⟩

theorem mem_of_nest {levels levels' : List Nat} (h0 : 0 ∈ levels) {opens : Bool} {w : Nat}
    (h : nest levels opens w = .ok levels') : 0 ∈ levels' := by
  obtain ⟨tail, rfl, ⟨-, -, rfl⟩ | ⟨-, left, rfl, hleft⟩⟩ := (nest_eq_ok_iff h0).mp h
  · exact List.mem_cons_of_mem _ h0
  · rcases List.mem_append.mp h0 with h0 | h0
    · exact absurd (hleft 0 h0) (Nat.not_lt_zero w)
    · exact h0

/-! ## All lines -/

/-- Places lines by their marks; the last one may not open a block. -/
def settle (levels : List Nat) (opens : Bool) : List Mark → Except Flaw (List Place)
  | [] => if opens then .error .missingBlock else .ok []
  | m :: ms =>
    match nest levels opens m.width with
    | .error flaw => .error flaw
    | .ok levels => (settle levels m.opens ms).map (⟨m, levels.length - 1⟩ :: ·)

theorem settle_cons_eq_ok_iff {levels : List Nat} {opens : Bool} {m : Mark} {ms : List Mark}
    {ps : List Place} :
    settle levels opens (m :: ms) = .ok ps ↔
      ∃ levels' ps', nest levels opens m.width = .ok levels' ∧
        settle levels' m.opens ms = .ok ps' ∧ ps = ⟨m, levels'.length - 1⟩ :: ps' := by
  rw [settle]
  cases nest levels opens m.width with
  | error flaw => simp
  | ok levels' =>
    cases hrest : settle levels' m.opens ms with
    | error flaw => simp [hrest, Except.map]
    | ok ps' => simp [hrest, Except.map, eq_comm]

/-! ## What is accepted -/

/-- What may follow while blocks of these widths are open, the innermost first: items of each of
them in turn. -/
inductive Spine : (levels : List Nat) → List Place → Prop where
  | nil : Spine [] []
  | cons {i : Nat} {levels : List Nat} {items rest : List Place}
      (hitems : Items levels.length i items) (hrest : Spine levels rest) :
      Spine (i :: levels) (items ++ rest)

/-- Nothing has to follow in a block that is open. -/
theorem Spine.append {levels : List Nat} {ps : List Place} (h : Spine levels ps)
    (left : List Nat) : Spine (left ++ levels) ps := by
  induction left with
  | nil => exact h
  | cons i left ih => exact @Spine.cons i (left ++ levels) [] ps .none ih

/-- What may follow while blocks of these widths are open and the line before opens one more or
does not. -/
def Follows (levels : List Nat) (opens : Bool) (ps : List Place) : Prop :=
  if opens then
    ∃ j inner rest, levels.headD 0 < j ∧ Block levels.length j inner ∧ Spine levels rest ∧
      ps = inner ++ rest
  else Spine levels ps

/-- A line at the top of the open blocks, with what may follow it, starts with a block of its
width. -/
theorem Follows.line {m : Mark} {tail : List Nat} {ps : List Place}
    (h : Follows (m.width :: tail) m.opens ps) :
    ∃ items rest, Block tail.length m.width items ∧ Spine tail rest ∧
      ⟨m, tail.length⟩ :: ps = items ++ rest := by
  obtain ⟨w, opens⟩ := m
  cases opens with
  | false =>
    cases h with
    | @cons _ _ items rest hitems hrest =>
      exact ⟨_ :: items, rest, ⟨List.cons_ne_nil _ _, .line hitems⟩, hrest, rfl⟩
  | true =>
    obtain ⟨j, inner, _, hj, hinner, hspine, rfl⟩ := h
    cases hspine with
    | @cons _ _ items rest hitems hrest =>
      have hblock : Items tail.length w (⟨⟨w, true⟩, tail.length⟩ :: (inner ++ items)) :=
        .block hj hinner.1 hinner.2 hitems
      refine ⟨_, rest, ⟨List.cons_ne_nil _ _, hblock⟩, hrest, ?_⟩
      rw [List.cons_append, List.append_assoc]

/-- The lines that are accepted while blocks are open are such as may follow. -/
theorem follows_of_settle {levels : List Nat} {opens : Bool} {ms : List Mark} {ps : List Place}
    (h0 : 0 ∈ levels) (h : settle levels opens ms = .ok ps) :
    Follows levels opens ps ∧ ps.map Place.toMark = ms := by
  induction ms generalizing levels opens ps with
  | nil =>
    cases opens with
    | true => simp [settle] at h
    | false =>
      cases h
      exact ⟨List.append_nil levels ▸ Spine.nil.append levels, rfl⟩
  | cons m ms ih =>
    obtain ⟨levels', ps, hnest, hsettle, rfl⟩ := settle_cons_eq_ok_iff.mp h
    obtain ⟨hfollows, hmarks⟩ := ih (mem_of_nest h0 hnest) hsettle
    obtain ⟨tail, rfl, hplace⟩ := (nest_eq_ok_iff h0).mp hnest
    obtain ⟨items, rest, hblock, hspine, hsplit⟩ := hfollows.line
    refine ⟨?_, by rw [List.map_cons, hmarks]⟩
    rw [List.length_cons, Nat.add_sub_cancel, hsplit]
    rcases hplace with ⟨rfl, hdeeper, rfl⟩ | ⟨rfl, left, rfl, -⟩
    · exact ⟨m.width, items, rest, hdeeper, hblock, hspine, rfl⟩
    · exact (Spine.cons hblock.2 hspine).append left

/-- The first line of a block is placed alike whether the block is still to be opened or has just
been. -/
theorem settle_opened {i j : Nat} {levels : List Nat} (h0 : 0 ∈ i :: levels) (hij : i < j)
    {m : Mark} (hm : m.width = j) (ms : List Mark) :
    settle (i :: levels) true (m :: ms) = settle (j :: i :: levels) false (m :: ms) := by
  have hopen : nest (i :: levels) true m.width = .ok (j :: i :: levels) :=
    (nest_eq_ok_iff h0).mpr ⟨i :: levels, by rw [hm], .inl ⟨rfl, hm ▸ hij, rfl⟩⟩
  have hopened : nest (j :: i :: levels) false m.width = .ok (j :: i :: levels) :=
    hm ▸ nest_of_open (List.mem_cons_of_mem _ h0) (List.forall_mem_nil _)
  rw [settle, settle, hopen, hopened]

/-- Items are accepted where their block is open, and wider blocks may be left open inside it before
them and after them. -/
theorem Items.settle_append {d i : Nat} {ps : List Place} (h : Items d i ps) {levels : List Nat}
    (h0 : 0 ∈ i :: levels) (hlength : levels.length = d) (left : List Nat)
    (hleft : ∀ x ∈ left, i < x) (ms : List Mark) :
    ∃ left' : List Nat, (∀ x ∈ left', i < x) ∧
      settle (left ++ i :: levels) false (ps.map Place.toMark ++ ms) =
        (settle (left' ++ i :: levels) false ms).map (ps ++ ·) := by
  have hmap (f g : List Place → List Place) (x : Except Flaw (List Place)) :
      (x.map f).map g = x.map (g ∘ f) := by cases x <;> rfl
  induction h generalizing levels left ms with
  | none =>
    refine ⟨left, hleft, ?_⟩
    rw [List.map_nil, List.nil_append]
    cases settle (left ++ _ :: levels) false ms <;> rfl
  | line _ ih =>
    obtain ⟨left', hleft', hrest⟩ := ih h0 hlength [] (by simp) ms
    refine ⟨left', hleft', ?_⟩
    rw [List.nil_append] at hrest
    simp only [List.map_cons, List.cons_append, settle, nest_of_open h0 hleft, hrest, hmap]
    rw [List.length_cons, Nat.add_sub_cancel, hlength]
    rfl
  | @block d i j inner rest hij hne hinner hrest ihinner ihrest =>
    obtain ⟨p, inner, rfl⟩ := List.exists_cons_of_ne_nil hne
    have h0' : 0 ∈ j :: i :: levels := List.mem_cons_of_mem _ h0
    obtain ⟨left₁, hleft₁, hin⟩ := ihinner h0' (by rw [List.length_cons, hlength]) []
      (by simp) (rest.map Place.toMark ++ ms)
    -- The inner block and those in it stay open until the next line comes.
    have hopen : ∀ x ∈ left₁ ++ [j], i < x := by
      intro x hx
      rcases List.mem_append.mp hx with hx | hx
      · exact Nat.lt_trans hij (hleft₁ x hx)
      · rw [List.mem_singleton.mp hx]
        exact hij
    obtain ⟨left', hleft', hout⟩ := ihrest h0 hlength _ hopen ms
    refine ⟨left', hleft', ?_⟩
    rw [List.append_assoc, List.singleton_append] at hout
    rw [List.nil_append, List.map_cons, List.cons_append,
      ← settle_opened h0 hij hinner.head.1, hout, hmap] at hin
    simp only [List.map_cons, List.cons_append, List.map_append, List.append_assoc]
    rw [settle, nest_of_open h0 hleft]
    simp only [hin, hmap]
    rw [List.length_cons, Nat.add_sub_cancel, hlength]
    rfl

/-- The lines that are accepted are those of blocks, each with the number of the blocks around
it. -/
theorem settle_eq_ok_iff {ms : List Mark} {ps : List Place} :
    settle [0] false ms = .ok ps ↔ Items 0 0 ps ∧ ps.map Place.toMark = ms := by
  constructor
  · intro h
    obtain ⟨hfollows, hmarks⟩ := follows_of_settle List.mem_cons_self h
    cases hfollows with
    | cons hitems hrest =>
      cases hrest
      rw [List.append_nil] at hmarks ⊢
      exact ⟨hitems, hmarks⟩
  · rintro ⟨hitems, rfl⟩
    obtain ⟨left, -, h⟩ := hitems.settle_append (List.mem_singleton_self 0) rfl [] (by simp) []
    rw [List.nil_append, List.append_nil] at h
    rw [h, settle]
    exact congrArg Except.ok (List.append_nil ps)

/-! ## Neighbours -/

/-- Lines that follow each other: the depth grows by at most one, and it grows exactly if the first
line opens a block. -/
def Place.Neighbours (p q : Place) : Prop :=
  q.depth ≤ p.depth + 1 ∧ (q.depth = p.depth + 1 ↔ p.opens = true)

/-- The line before stands for the open blocks and for what it opens. -/
theorem isChain_of_settle {levels : List Nat} {opens : Bool} {ms : List Mark} {ps : List Place}
    (h0 : 0 ∈ levels) (h : settle levels opens ms = .ok ps) (w : Nat) :
    (⟨⟨w, opens⟩, levels.length - 1⟩ :: ps).IsChain Place.Neighbours := by
  induction ms generalizing levels opens ps w with
  | nil =>
    cases opens with
    | true => simp [settle] at h
    | false =>
      cases h
      exact .singleton _
  | cons m ms ih =>
    obtain ⟨levels', ps, hnest, hsettle, rfl⟩ := settle_cons_eq_ok_iff.mp h
    refine .cons_cons ?_ (ih (mem_of_nest h0 hnest) hsettle m.width)
    have hlength := List.length_pos_of_mem h0
    obtain ⟨tail, rfl, ⟨rfl, -, rfl⟩ | ⟨rfl, left, rfl, -⟩⟩ := (nest_eq_ok_iff h0).mp hnest
    · simp only [Place.Neighbours, List.length_cons, iff_true]
      omega
    · simp only [Place.Neighbours, List.length_append, List.length_cons, Bool.false_eq_true,
        iff_false]
      omega

/-! ## Flaws -/

theorem flaw_of_nest {levels : List Nat} {opens : Bool} {w : Nat} {flaw : Flaw}
    (h : nest levels opens w = .error flaw) : flaw ≠ .openString := by
  rintro rfl
  simp only [nest] at h
  split at h
  · split at h <;> cases h
  · split at h
    · cases h
    · split at h <;> cases h

/-- Marks can be wrong only in how they are nested. -/
theorem flaw_of_settle {levels : List Nat} {opens : Bool} {ms : List Mark} {flaw : Flaw}
    (h : settle levels opens ms = .error flaw) : flaw ≠ .openString := by
  induction ms generalizing levels opens with
  | nil =>
    cases opens with
    | true => cases h; decide
    | false => cases h
  | cons m ms ih =>
    rw [settle] at h
    cases hnest : nest levels opens m.width with
    | error flaw' =>
      rw [hnest] at h
      cases h
      exact flaw_of_nest hnest
    | ok levels' =>
      rw [hnest] at h
      cases hrest : settle levels' m.opens ms with
      | error flaw' =>
        simp only [hrest, Except.map] at h
        cases h
        exact ih hrest
      | ok ps => simp [hrest, Except.map] at h

end Contour.Outline
