import Contour.Proofs.Numeral.Position
import Contour.Proofs.Stream.Closed
import Mathlib.Data.Int.ModEq

/-!
# What the weights of a stream are read for

The walk over a stream gives each of its weights a role (`Span.roleAt`): it selects an operation, it
is the first or a later digit of an argument, or it is part of what is no instruction. A weight is
read for its role only, so that another one of the same class can take its place (`Role.Admits`):

* an operation is selected by the residue of the weight, which has its sign;
* a digit is the remainder modulo ten, which has none, and the first one decides the sign of the
  number by being zero or not;
* everything else is left as it is, since a weight in a comment may end it.

Any number of weights can be exchanged at once: no span moves (`spans_of_sameClasses`), and the
stream is read as the same instructions (`decode_of_sameClasses`).
-/

namespace Contour

namespace Numeral

/-! ## Digits of one class -/

theorem digit_congr {w w' : Int64} (h : w'.toInt ≡ w.toInt [ZMOD 10]) : digit w' = digit w := by
  have hcast : (digit w' : Int) = digit w := by
    rw [cast_digit, cast_digit]
    exact h
  exact Int.ofNat_inj.mp hcast

/-- How far a run goes is decided by the indices. -/
theorem length_run_congr {ds ds' : List Delta} (h : ds'.map Delta.index = ds.map Delta.index) :
    (run ds').length = (run ds).length := by
  have hrun (es : List Delta) : ((es.map Delta.index).takeWhile (· == 0)).length =
      (run es).length := by
    rw [List.takeWhile_map, List.length_map]
    rfl
  rw [← hrun, ← hrun, h]

theorem getElem_run {ds : List Delta} {j : Nat} (hj : j < (run ds).length) :
    ds[j]? = some (run ds)[j] := by
  have hstart : run ds <+: ds := List.takeWhile_prefix _
  rw [hstart.getElem hj, List.getElem?_eq_getElem]

/-- The number at the start of a stream is decided by the indices, the classes of the digits, and
whether the first digit is zero. -/
theorem read_congr {ds ds' : List Delta} (hindex : ds'.map Delta.index = ds.map Delta.index)
    (hdigits : ∀ j < (run ds).length, ∀ d ∈ ds[j]?, ∀ d' ∈ ds'[j]?,
      d'.weight.toInt ≡ d.weight.toInt [ZMOD 10])
    (hfirst : 0 < (run ds).length → ∀ d ∈ ds[0]?, ∀ d' ∈ ds'[0]?,
      (d'.weight = 0 ↔ d.weight = 0)) (default : Int) :
    read ds' default = read ds default := by
  have hlength := length_run_congr hindex
  by_cases hnone : run ds = []
  · have hnone' : run ds' = [] := List.eq_nil_of_length_eq_zero (by rw [hlength, hnone]; rfl)
    rw [read, read, hnone, hnone']
  have hpos : 0 < (run ds).length := List.length_pos_iff.mpr hnone
  have hpos' : 0 < (run ds').length := by rw [hlength]; exact hpos
  have hmap : (run ds').map (fun d => digit d.weight) = (run ds).map fun d => digit d.weight := by
    refine List.ext_getElem (by rw [List.length_map, List.length_map, hlength]) fun j hj' hj => ?_
    rw [List.length_map] at hj hj'
    rw [List.getElem_map, List.getElem_map]
    exact digit_congr (hdigits j hj _ (getElem_run hj) _ (getElem_run hj'))
  have hsign : signOf (run ds') = signOf (run ds) := by
    have hzero := hfirst hpos _ (getElem_run hpos) _ (getElem_run hpos')
    rw [signOf, signOf, List.head?_eq_getElem?, List.head?_eq_getElem?,
      List.getElem?_eq_getElem hpos, List.getElem?_eq_getElem hpos']
    simp only [Option.map_some, Option.some.injEq, hzero]
  rw [read_of_run rfl hnone, read_of_run rfl (List.length_pos_iff.mp hpos'), hlength,
    valueOf_eq_signOf_mul, valueOf_eq_signOf_mul, hsign, hmap]

end Numeral

namespace Stream

/-! ## Roles -/

/-- What a weight is read for. -/
inductive Role where
  /-- It selects an operation. -/
  | key
  /-- It is the first digit of an argument, or its sign. -/
  | firstDigit
  /-- It is a later digit of an argument. -/
  | digit
  /-- It belongs to no instruction. -/
  | other
deriving DecidableEq, Repr

/-- In this role the weight `w'` can take the place of `w`. -/
def Role.Admits : Role → (w w' : Int64) → Prop
  | .key, w, w' => Delta.residue w' = Delta.residue w
  | .firstDigit, w, w' => w'.toInt ≡ w.toInt [ZMOD 10] ∧ (w' = 0 ↔ w = 0)
  | .digit, w, w' => w'.toInt ≡ w.toInt [ZMOD 10]
  | .other, w, w' => w' = w

instance (r : Role) (w w' : Int64) : Decidable (r.Admits w w') :=
  match r with
  | .key => inferInstanceAs (Decidable (_ = _))
  | .firstDigit => inferInstanceAs (Decidable (_ % _ = _ % _ ∧ _))
  | .digit => inferInstanceAs (Decidable (_ % _ = _ % _))
  | .other => inferInstanceAs (Decidable (_ = _))

/-- The positions of a stream that a span covers. -/
def Span.positions (s : Span) : List Nat := List.range' s.offset s.length

/-- The role of a position of the stream in the span that covers it. -/
def Span.roleAt (s : Span) (i : Nat) : Role :=
  match s.content with
  | .operation .. =>
    if i = s.offset then .key else if i = s.offset + 1 then .firstDigit else .digit
  | _ => .other

/-- The streams differ in weights only, and every weight of the one is admitted in the role that the
weight in its place has in the walk over the other. -/
def SameClasses (ds ds' : List Delta) : Prop :=
  ds'.map Delta.index = ds.map Delta.index ∧
    ∀ s ∈ spans ds, ∀ i ∈ s.positions, ∀ d ∈ ds[i]?, ∀ d' ∈ ds'[i]?,
      (s.roleAt i).Admits d.weight d'.weight

instance (ds ds' : List Delta) : Decidable (SameClasses ds ds') :=
  inferInstanceAs (Decidable (_ ∧ _))

/-! ## One span -/

/-- A comment goes to the end of the stream, or it ends in what it covers. -/
theorem closes_take_commentTail (w : Int64) (rest : List Delta) :
    commentTail w rest = rest.length ∨ Closes w (rest.take (commentTail w rest)) := by
  rw [commentTail]
  by_cases hpos : 0 < w
  · have hneg : ¬ w < 0 := fun hlt => absurd (Int64.lt_trans hpos hlt) (by decide)
    rw [if_pos hpos]
    rcases Nat.le_total w.toInt.toNat rest.length with hle | hle
    · refine .inr ⟨fun _ => ?_, fun hlt => absurd hlt hneg⟩
      rw [List.length_take]
      omega
    · exact .inl (Nat.min_eq_right hle)
  · by_cases hneg : w < 0
    · simp only [if_neg hpos, if_pos hneg]
      set p : Delta → Bool := fun d => !(d.index == 0 && decide (d.weight < 0)) with hp
      have hsplit : rest.takeWhile p ++ rest.dropWhile p = rest := List.takeWhile_append_dropWhile
      have hstop := List.head?_dropWhile_not p rest
      cases hmore : rest.dropWhile p with
      | nil =>
        rw [hmore, List.append_nil] at hsplit
        exact .inl (by rw [hsplit]; omega)
      | cons e more =>
        -- The delta at which the search stops is the last one of the comment.
        rw [hmore] at hsplit hstop
        have hlength := congrArg List.length hsplit
        rw [List.length_append, List.length_cons] at hlength
        have hget : (rest.takeWhile p ++ e :: more)[(rest.takeWhile p).length]? = some e := by
          rw [List.getElem?_append_right (Nat.le_refl _), Nat.sub_self, List.getElem?_cons_zero]
        rw [hsplit] at hget
        have hmem : e ∈ rest.take ((rest.takeWhile p).length + 1) := by
          refine List.mem_of_getElem? (i := (rest.takeWhile p).length) ?_
          rw [List.getElem?_take_of_lt (Nat.lt_succ_self _), hget]
        refine .inr ⟨fun hlt => absurd hlt hpos, fun _ => ⟨e, ?_, by simpa [hp] using hstop⟩⟩
        rw [Nat.min_eq_left (by omega)]
        exact hmem
    · rw [if_neg hpos, if_neg hneg]
      exact .inr ⟨fun hlt => absurd hlt hpos, fun hlt => absurd hlt hneg⟩

/-- What a comment covers decides how much that is. -/
theorem commentTail_congr {w : Int64} {rest rest' : List Delta}
    (hlength : rest'.length = rest.length)
    (htake : rest'.take (commentTail w rest) = rest.take (commentTail w rest)) :
    commentTail w rest' = commentTail w rest := by
  obtain hall | hcloses := closes_take_commentTail w rest
  · rw [hall, List.take_length, ← hlength, List.take_length] at htake
    rw [htake]
  · have hsplit (es : List Delta) := List.take_append_drop (commentTail w rest) es
    calc commentTail w rest'
        = commentTail w (rest.take (commentTail w rest)) := by
          rw [← hsplit rest', htake, commentTail_append hcloses]
      _ = commentTail w rest := by
          rw [← commentTail_append hcloses (rest.drop (commentTail w rest)), hsplit]

/-- An operation is selected by its index and the residue of its weight. -/
theorem readSpan_of_residue {d d' : Delta} {rest : List Delta} {op : Opcode}
    {argument : Option Int} (hop : (readSpan d rest).1 = .operation op argument)
    (hindex : d'.index = d.index) (hresidue : Delta.residue d'.weight = Delta.residue d.weight) :
    readSpan d' = readSpan d := by
  have hsame : Opcode.ofDelta? d' = Opcode.ofDelta? d := by
    rw [Opcode.ofDelta?, Opcode.ofDelta?, hindex, hresidue]
  funext more
  rw [readSpan] at hop ⊢
  rw [readSpan, hsame]
  cases hfound : Opcode.ofDelta? d with
  | some op => rfl
  | none =>
    rw [hfound] at hop
    simp only at hop
    split at hop <;> cases hop

namespace SameClasses

variable {d d' : Delta} {rest rest' : List Delta}

/-- The weights that the first span covers are admitted in their roles. -/
theorem admits_first (h : SameClasses (d :: rest) (d' :: rest')) {content : Content} {k : Nat}
    (hspan : readSpan d rest = (content, k)) {i : Nat} (hi : i ≤ k) {e e' : Delta}
    (he : (d :: rest)[i]? = some e) (he' : (d' :: rest')[i]? = some e') :
    (Span.roleAt ⟨0, content, 1 + k⟩ i).Admits e.weight e'.weight := by
  have hmem : ⟨0, content, 1 + k⟩ ∈ spans (d :: rest) := by
    rw [spans_cons, hspan]
    exact List.mem_cons_self
  refine h.2 _ hmem i ?_ e he e' he'
  simp only [Span.positions, List.mem_range'_1]
  omega

theorem length_eq (h : SameClasses (d :: rest) (d' :: rest')) : rest'.length = rest.length := by
  have hmap := congrArg List.length (List.cons.inj h.1).2
  rwa [List.length_map, List.length_map] at hmap

/-- An operation at the start is selected by a weight of the same residue. -/
theorem residue_eq (h : SameClasses (d :: rest) (d' :: rest')) {op : Opcode}
    {argument : Option Int} {k : Nat} (hspan : readSpan d rest = (.operation op argument, k)) :
    Delta.residue d'.weight = Delta.residue d.weight :=
  h.admits_first hspan (Nat.zero_le k) rfl rfl

/-- The digits after an operation at the start are of the same classes. -/
theorem digits (h : SameClasses (d :: rest) (d' :: rest')) {op : Opcode}
    {argument : Option Int} {k : Nat} (hspan : readSpan d rest = (.operation op argument, k))
    {j : Nat} (hj : j < k) {e e' : Delta} (he : rest[j]? = some e) (he' : rest'[j]? = some e') :
    e'.weight.toInt ≡ e.weight.toInt [ZMOD 10] ∧ (j = 0 → (e'.weight = 0 ↔ e.weight = 0)) := by
  have hrole := h.admits_first hspan (i := j + 1) hj he he'
  rw [Span.roleAt] at hrole
  simp only [Nat.add_eq_zero_iff, Nat.one_ne_zero, and_false, if_false, Nat.zero_add] at hrole
  cases j with
  | zero => exact ⟨hrole.1, fun _ => hrole.2⟩
  | succ j => exact ⟨hrole, nofun⟩

/-- What is no operation at the start is the same in both streams. -/
theorem take_eq (h : SameClasses (d :: rest) (d' :: rest')) {content : Content} {k : Nat}
    (hspan : readSpan d rest = (content, k))
    (hother : ∀ op argument, content ≠ .operation op argument) :
    d' = d ∧ rest'.take k = rest.take k := by
  have hall : (d' :: rest').take (k + 1) = (d :: rest).take (k + 1) := by
    refine List.ext_getElem? fun i => ?_
    rw [List.getElem?_take, List.getElem?_take]
    by_cases hi : i < k + 1
    · rw [if_pos hi, if_pos hi]
      have hindex : ((d' :: rest')[i]?).map Delta.index = ((d :: rest)[i]?).map Delta.index := by
        rw [← List.getElem?_map, ← List.getElem?_map, h.1]
      cases he : (d :: rest)[i]? with
      | none =>
        rw [he] at hindex
        exact Option.map_eq_none_iff.mp hindex
      | some e =>
        rw [he] at hindex
        obtain ⟨e', he', hindex⟩ := Option.map_eq_some_iff.mp hindex
        have hrole := h.admits_first hspan (Nat.le_of_lt_succ hi) he he'
        have hweight : e'.weight = e.weight := by
          cases content with
          | operation op argument => exact absurd rfl (hother op argument)
          | comment => exact hrole
          | unused => exact hrole
        obtain ⟨index, weight⟩ := e
        obtain ⟨index', weight'⟩ := e'
        rw [he', Option.some.injEq, Delta.mk.injEq]
        exact ⟨hindex, hweight⟩
    · rw [if_neg hi, if_neg hi]
  rw [List.take_succ_cons, List.take_succ_cons] at hall
  exact List.cons.inj hall

/-- What is left of both streams after the first span. -/
theorem drop (h : SameClasses (d :: rest) (d' :: rest')) {content : Content} {k : Nat}
    (hspan : readSpan d rest = (content, k)) : SameClasses (rest.drop k) (rest'.drop k) := by
  refine ⟨?_, fun s hs i hi e he e' he' => ?_⟩
  · rw [List.map_drop, List.map_drop, (List.cons.inj h.1).2]
  · have hmem : s.shift (1 + k) ∈ spans (d :: rest) := by
      rw [spans_cons, hspan]
      exact List.mem_cons_of_mem _ (List.mem_map_of_mem hs)
    have hposition : 1 + k + i ∈ (s.shift (1 + k)).positions := by
      simp only [Span.positions, List.mem_range'_1, Span.shift] at hi ⊢
      omega
    have hget (x : Delta) (xs : List Delta) : (x :: xs)[1 + k + i]? = (xs.drop k)[i]? := by
      rw [List.getElem?_drop, show 1 + k + i = k + i + 1 by omega, List.getElem?_cons_succ]
    have hrole : (s.shift (1 + k)).roleAt (1 + k + i) = s.roleAt i := by
      simp only [Span.roleAt, Span.shift, Nat.add_assoc, Nat.add_left_cancel_iff]
    rw [← hrole]
    exact h.2 _ hmem _ hposition e (by rw [hget]; exact he) e' (by rw [hget]; exact he')

/-- The first span is read alike. -/
theorem readSpan_eq (h : SameClasses (d :: rest) (d' :: rest')) :
    readSpan d' rest' = readSpan d rest := by
  obtain ⟨hindex, hindices⟩ := List.cons.inj h.1
  obtain ⟨op, -, hread⟩ | ⟨op, -, hread⟩ | hread | hread := readSpan_cases d
  · have hspan := hread rest
    rw [consumed_read] at hspan
    have hnumber : Numeral.read rest' op.defaultArgument = Numeral.read rest op.defaultArgument :=
      Numeral.read_congr hindices (fun j hj e he e' he' => (h.digits hspan hj he he').1)
        (fun hpos e he e' he' => (h.digits hspan hpos he he').2 rfl) _
    rw [readSpan_of_residue (congrArg Prod.fst hspan) hindex (h.residue_eq hspan), hread, hread,
      hnumber]
  · have hspan := hread rest
    rw [readSpan_of_residue (congrArg Prod.fst hspan) hindex (h.residue_eq hspan), hread, hread]
  · obtain ⟨rfl, htake⟩ := h.take_eq (hread rest) nofun
    rw [hread, hread, commentTail_congr h.length_eq htake]
  · obtain ⟨rfl, -⟩ := h.take_eq (hread rest) nofun
    rw [hread, hread]

end SameClasses

/-! ## Whole streams -/

/-- Weights of the same classes move no span. -/
theorem spans_of_sameClasses {ds ds' : List Delta} (h : SameClasses ds ds') :
    spans ds' = spans ds := by
  -- The walk goes on after its first span, which is the same in both streams.
  induction hn : ds.length using Nat.strong_induction_on generalizing ds ds' with
  | _ n ih =>
    cases ds with
    | nil =>
      have hnil : ds' = [] := List.map_eq_nil_iff.mp h.1
      rw [hnil]
    | cons d rest =>
      obtain ⟨d', rest', rfl, -⟩ := List.map_eq_cons_iff.mp h.1
      have hdrop : SameClasses (rest.drop (readSpan d rest).2) (rest'.drop (readSpan d rest).2) :=
        h.drop rfl
      have hshorter : (rest.drop (readSpan d rest).2).length < n := by
        rw [← hn, List.length_drop, List.length_cons]
        omega
      rw [spans_cons, spans_cons, h.readSpan_eq, ih _ hshorter hdrop rfl]

/-- A stream is read for the classes of its weights: if other weights are of the same classes, each
in the role that it has in the walk over the stream, the same instructions are read, with the same
arguments and at the same positions, so that both streams run alike. -/
theorem decode_of_sameClasses {ds ds' : List Delta} (h : SameClasses ds ds') :
    decode ds' = decode ds ∧
      ∀ (σ : Type) (channel : Channel σ) (limit : Nat) (world : σ),
        Machine.execute channel (decode ds') limit world =
            Machine.execute channel (decode ds) limit world ∧
          ∀ fuel, Machine.runFrom channel (decode ds').toArray limit fuel 0 (Machine.start world) =
            Machine.runFrom channel (decode ds).toArray limit fuel 0 (Machine.start world) := by
  have hdecode : decode ds' = decode ds := by rw [decode, decode, spans_of_sameClasses h]
  refine ⟨hdecode, fun σ channel limit world => ?_⟩
  rw [hdecode]
  exact ⟨rfl, fun fuel => rfl⟩

/-- All weights of a program but the zero that is its sign, and those of its comment, exchanged for
others of their classes. -/
theorem decode_of_sameClasses_exchanged :
    let ds : List Delta :=
      [⟨1, 1⟩, ⟨0, 0⟩, ⟨0, 4⟩, ⟨0, 2⟩, ⟨1, -3⟩, ⟨0, -1⟩, ⟨1, 5⟩, ⟨0, -2⟩, ⟨-1, 2⟩, ⟨0, 10⟩, ⟨0, 3⟩]
    let ds' : List Delta :=
      [⟨1, 11⟩, ⟨0, 0⟩, ⟨0, -6⟩, ⟨0, 12⟩, ⟨1, -13⟩, ⟨0, -1⟩, ⟨1, 5⟩, ⟨0, -2⟩, ⟨-1, 32⟩, ⟨0, -20⟩,
        ⟨0, -7⟩]
    SameClasses ds ds' ∧ decode ds' = decode ds := by
  intro ds ds'
  have h : SameClasses ds ds' := by decide +kernel
  exact ⟨h, (decode_of_sameClasses h).1⟩

end Stream

end Contour
