import Contour.Proofs.Stream.Roles

/-!
# The walk over a stream

Reading walks over a stream from one span to the next. Each span is what is read at its place
(`standsIn_of_mem_spans`), it covers at least one delta and none that is not there, and the spans
tile the stream: written one after the other, the positions that they cover are all positions, each
once and in order (`flatMap_positions_spans`).

Two things follow from the tiling. The walk can be done in words (`next?`): whatever the weights
are, no word on the way overflows, and the cursor stops exactly at the end (`iterate_next?`). And
the only operations that are not read are those inside a comment (`forall_offset_ne_iff`), since
there is no other span that an operation can stand in without starting it (`offset_eq_or_comment`).
-/

namespace Contour.Stream

/-! ## One span -/

/-- The span is what is read at its place in the stream. -/
def Span.StandsIn (s : Span) (ds : List Delta) : Prop :=
  ∃ d rest, ds.drop s.offset = d :: rest ∧ s.content = (readSpan d rest).1 ∧
    s.length = 1 + (readSpan d rest).2

theorem drop_of_drop_eq_cons {ds rest : List Delta} {d : Delta} {p : Nat}
    (h : ds.drop p = d :: rest) (k : Nat) : ds.drop (p + (1 + k)) = rest.drop k := by
  rw [← List.drop_drop, h, Nat.add_comm 1, List.drop_succ_cons]

theorem getElem?_of_drop_eq_cons {ds rest : List Delta} {d : Delta} {p : Nat}
    (h : ds.drop p = d :: rest) (k : Nat) : ds[p + k]? = (d :: rest)[k]? := by
  rw [← h, List.getElem?_drop]

theorem length_of_drop_eq_cons {ds rest : List Delta} {d : Delta} {p : Nat}
    (h : ds.drop p = d :: rest) : ds.length = p + (1 + rest.length) := by
  have hlength := congrArg List.length h
  rw [List.length_drop, List.length_cons] at hlength
  omega

/-- What is read at a place of the stream does not go beyond its end. -/
theorem add_readSpan_le_length {ds rest : List Delta} {d : Delta} {p : Nat}
    (h : ds.drop p = d :: rest) : p + (1 + (readSpan d rest).2) ≤ ds.length := by
  have hle := readSpan_snd_le_length d rest
  have hlength := length_of_drop_eq_cons h
  omega

/-- An operation is read exactly where a delta selects it. -/
theorem ofDelta?_eq_some_iff_readSpan {d : Delta} {op : Opcode} {rest : List Delta} :
    Opcode.ofDelta? d = some op ↔ ∃ argument, (readSpan d rest).1 = .operation op argument := by
  unfold readSpan
  cases Opcode.ofDelta? d with
  | some op' => cases htakes : op'.takesArgument <;> simp [htakes]
  | none => cases d.index == 0 <;> simp

theorem standsIn_of_mem_spansFrom {ds more : List Delta} {offset : Nat} {s : Span}
    (hdrop : ds.drop offset = more) (hs : s ∈ spansFrom offset more) : s.StandsIn ds := by
  fun_induction spansFrom offset more with
  | case1 => cases hs
  | case2 offset d rest content extra hspan ih =>
    rcases List.mem_cons.mp hs with rfl | hs
    · refine ⟨d, rest, hdrop, ?_, ?_⟩
      · rw [hspan]
      · rw [hspan]
    · exact ih (drop_of_drop_eq_cons hdrop extra) hs

theorem standsIn_of_mem_spans {ds : List Delta} {s : Span} (hs : s ∈ spans ds) : s.StandsIn ds :=
  standsIn_of_mem_spansFrom List.drop_zero hs

namespace Span.StandsIn

variable {ds : List Delta} {s : Span}

theorem pos_length (h : s.StandsIn ds) : 0 < s.length := by
  obtain ⟨d, rest, -, -, hlength⟩ := h
  omega

theorem add_length_le (h : s.StandsIn ds) : s.offset + s.length ≤ ds.length := by
  obtain ⟨d, rest, hdrop, -, hlength⟩ := h
  rw [hlength]
  exact add_readSpan_le_length hdrop

/-- The first position of a span is one that it covers. -/
theorem offset_mem_positions (h : s.StandsIn ds) : s.offset ∈ s.positions := by
  have hpos := h.pos_length
  rw [Span.positions, List.mem_range'_1]
  omega

/-- An operation is the one that the first delta of its span selects. -/
theorem ofDelta?_eq (h : s.StandsIn ds) {op : Opcode} {argument : Option Int}
    (hop : s.content = .operation op argument) :
    ∃ d, ds[s.offset]? = some d ∧ Opcode.ofDelta? d = some op := by
  obtain ⟨d, rest, hdrop, hcontent, -⟩ := h
  refine ⟨d, getElem?_of_drop_eq_cons hdrop 0, ?_⟩
  apply ofDelta?_eq_some_iff_readSpan.mpr
  exact ⟨argument, hcontent.symm.trans hop⟩

/-- A delta that selects an operation starts its span, unless it is inside a comment: behind the
first delta of a span there are only the digits of an argument, and what a comment covers. -/
theorem offset_eq_or_comment (h : s.StandsIn ds) {p : Nat} (hp : p ∈ s.positions) {d : Delta}
    (hd : ds[p]? = some d) {op : Opcode} (hop : Opcode.ofDelta? d = some op) :
    (p = s.offset ∧ ∃ argument, s.content = .operation op argument) ∨
      (s.content = .comment ∧ s.offset < p ∧ p < s.offset + s.length) := by
  obtain ⟨first, rest, hdrop, hcontent, hlength⟩ := h
  have hindex : d.index ≠ 0 := by
    have hkey := Opcode.ofDelta?_eq_some_iff.mp hop
    intro h0
    apply op.index_key_ne_zero
    rw [hkey, h0]
  rw [Span.positions, List.mem_range'_1] at hp
  obtain ⟨k, rfl⟩ := Nat.exists_eq_add_of_le hp.1
  rw [getElem?_of_drop_eq_cons hdrop] at hd
  cases k with
  | zero =>
    obtain rfl : first = d := Option.some.inj hd
    refine .inl ⟨rfl, ?_⟩
    rw [hcontent]
    exact ofDelta?_eq_some_iff_readSpan.mp hop
  | succ k =>
    rw [List.getElem?_cons_succ] at hd
    obtain ⟨op', -, hread⟩ | ⟨op', -, hread⟩ | hread | hread := readSpan_cases first
    · -- It would be a digit.
      rw [hread, consumed_read] at hlength
      have hk : k < (Numeral.run rest).length := by omega
      have hdigit : (Numeral.run rest)[k] = d :=
        Option.some.inj ((Numeral.getElem_run hk).symm.trans hd)
      exact absurd (Numeral.index_of_mem_run (hdigit ▸ List.getElem_mem hk)) hindex
    · rw [hread] at hlength
      omega
    · exact .inr ⟨by rw [hcontent, hread], by omega, by omega⟩
    · rw [hread] at hlength
      omega

end Span.StandsIn

/-! ## The tiling -/

theorem flatMap_positions_spansFrom (offset : Nat) (ds : List Delta) :
    (spansFrom offset ds).flatMap Span.positions = List.range' offset ds.length := by
  fun_induction spansFrom offset ds with
  | case1 => rfl
  | case2 offset d rest content extra hspan ih =>
    have hle := readSpan_snd_le_length d rest
    rw [hspan] at hle
    have hsum : 1 + extra + (rest.length - extra) = rest.length + 1 := by
      dsimp only at hle
      omega
    rw [List.flatMap_cons, ih, Span.positions, List.length_drop, List.range'_append_1, hsum,
      List.length_cons]

/-- The spans cover every position of the stream once, in order. -/
theorem flatMap_positions_spans (ds : List Delta) :
    (spans ds).flatMap Span.positions = List.range ds.length := by
  rw [List.range_eq_range']
  exact flatMap_positions_spansFrom 0 ds

/-- All of a span is before all of a later one. -/
theorem pairwise_spans (ds : List Delta) :
    (spans ds).Pairwise fun s s' => ∀ p ∈ s.positions, ∀ p' ∈ s'.positions, p < p' := by
  have hlt : (List.range ds.length).Pairwise (· < ·) := List.pairwise_lt_range
  rw [← flatMap_positions_spans, List.pairwise_flatMap] at hlt
  exact hlt.2

theorem exists_mem_spans {ds : List Delta} {p : Nat} (hp : p < ds.length) :
    ∃ s ∈ spans ds, p ∈ s.positions := by
  rw [← List.mem_flatMap, flatMap_positions_spans]
  exact List.mem_range.mpr hp

/-- No two spans cover the same position. -/
theorem eq_of_mem_positions {ds : List Delta} {s s' : Span} (hs : s ∈ spans ds)
    (hs' : s' ∈ spans ds) {p : Nat} (hp : p ∈ s.positions) (hp' : p ∈ s'.positions) : s = s' := by
  have hnodup : (List.range ds.length).Nodup := List.nodup_range
  rw [← flatMap_positions_spans, List.nodup_flatMap] at hnodup
  have hsymm : Std.Symm (Function.onFun List.Disjoint Span.positions) :=
    ⟨fun _ _ h => h.symm⟩
  by_contra hne
  exact hnodup.2.forall hs hs' hne hp hp'

/-! ## Instructions -/

theorem Span.instruction?_eq_some_iff {s : Span} {i : Instruction} :
    s.instruction? = some i ↔ ∃ op argument, s.content = .operation op argument ∧
      i = { mnemonic := op.name, argument, offset := s.offset } := by
  obtain ⟨offset, content, length⟩ := s
  cases content with
  | operation op argument => simp [Span.instruction?, eq_comm]
  | comment => simp [Span.instruction?]
  | unused => simp [Span.instruction?]

theorem exists_mem_decode_iff {ds : List Delta} {p : Nat} :
    (∃ i ∈ decode ds, i.offset = p) ↔
      ∃ s ∈ spans ds, s.offset = p ∧ ∃ op argument, s.content = .operation op argument := by
  constructor
  · rintro ⟨i, hi, rfl⟩
    obtain ⟨s, hs, hinstruction⟩ := List.mem_filterMap.mp hi
    obtain ⟨op, argument, hcontent, rfl⟩ := Span.instruction?_eq_some_iff.mp hinstruction
    exact ⟨s, hs, rfl, op, argument, hcontent⟩
  · rintro ⟨s, hs, rfl, op, argument, hcontent⟩
    exact ⟨_, List.mem_filterMap.mpr
      ⟨s, hs, Span.instruction?_eq_some_iff.mpr ⟨op, argument, hcontent, rfl⟩⟩, rfl⟩

/-- An instruction starts a span, and is named by the operation that the delta there selects. -/
theorem exists_span_of_mem_decode {ds : List Delta} {i : Instruction} (hi : i ∈ decode ds) :
    ∃ s ∈ spans ds, s.offset = i.offset ∧
      ∃ d op, ds[i.offset]? = some d ∧ Opcode.ofDelta? d = some op ∧ i.mnemonic = op.name := by
  obtain ⟨s, hs, hinstruction⟩ := List.mem_filterMap.mp hi
  obtain ⟨op, argument, hcontent, rfl⟩ := Span.instruction?_eq_some_iff.mp hinstruction
  obtain ⟨d, hd, hop⟩ := (standsIn_of_mem_spans hs).ofDelta?_eq hcontent
  exact ⟨s, hs, rfl, d, op, hd, hop, rfl⟩

theorem pairwise_offset_decode (ds : List Delta) :
    ((decode ds).map Instruction.offset).Pairwise (· < ·) := by
  rw [List.pairwise_map, decode, List.pairwise_filterMap]
  refine (pairwise_spans ds).imp_of_mem fun {s s'} hs hs' hlt i hi i' hi' => ?_
  obtain ⟨op, argument, -, rfl⟩ := Span.instruction?_eq_some_iff.mp hi
  obtain ⟨op', argument', -, rfl⟩ := Span.instruction?_eq_some_iff.mp hi'
  exact hlt _ (standsIn_of_mem_spans hs).offset_mem_positions
    _ (standsIn_of_mem_spans hs').offset_mem_positions

/-- A delta that selects an operation is not read as one exactly if it is inside a comment, behind
its first delta. -/
theorem forall_offset_ne_iff {ds : List Delta} {p : Nat} {d : Delta} (hd : ds[p]? = some d)
    {op : Opcode} (hop : Opcode.ofDelta? d = some op) :
    (∀ i ∈ decode ds, i.offset ≠ p) ↔
      ∃ s ∈ spans ds, s.content = .comment ∧ s.offset < p ∧ p < s.offset + s.length := by
  constructor
  · intro hnone
    obtain ⟨hlt, -⟩ := List.getElem?_eq_some_iff.mp hd
    obtain ⟨s, hs, hp⟩ := exists_mem_spans hlt
    obtain ⟨rfl, argument, hcontent⟩ | hcomment :=
      (standsIn_of_mem_spans hs).offset_eq_or_comment hp hd hop
    · obtain ⟨i, hi, hoffset⟩ := exists_mem_decode_iff.mpr ⟨s, hs, rfl, op, argument, hcontent⟩
      exact absurd hoffset (hnone i hi)
    · exact ⟨s, hs, hcomment⟩
  · rintro ⟨s, hs, hcontent, hlow, hhigh⟩ i hi hoffset
    obtain ⟨s', hs', rfl, op', argument, hcontent'⟩ := exists_mem_decode_iff.mp ⟨i, hi, hoffset⟩
    have hp : s'.offset ∈ s.positions := by
      rw [Span.positions, List.mem_range'_1]
      omega
    have hp' := (standsIn_of_mem_spans hs').offset_mem_positions
    obtain rfl := eq_of_mem_positions hs hs' hp hp'
    exact absurd hlow (Nat.lt_irrefl _)

/-! ## The walk in words -/

/-- The sum of two words, if it is one. -/
def add? (a b : Int64) : Option Int64 :=
  if (a + b).toInt = a.toInt + b.toInt then some (a + b) else none

/-- The difference of two words, if it is one. -/
def sub? (a b : Int64) : Option Int64 :=
  if (a - b).toInt = a.toInt - b.toInt then some (a - b) else none

/-- How many deltas the comment covers that starts with the weight `w` at a place of a stream of the
given length, in words. `rest` are the deltas after its first one. -/
def wordComment? (length offset w : Int64) (rest : List Delta) : Option Int64 :=
  if 0 < w then do
    let room ← sub? length offset
    if w < room then add? 1 w else some room
  else if w < 0 then
    let ahead := rest.findIdx fun d => d.index == 0 && decide (d.weight < 0)
    if ahead < rest.length then do
      let first ← add? offset 1
      let last ← add? first (Int64.ofNat ahead)
      let stop ← add? last 1
      sub? stop offset
    else sub? length offset
  else some 1

/-- How many deltas are covered by the span that starts with `d` at a place of a stream of the given
length, in words. -/
def wordSpan? (length offset : Int64) (d : Delta) (rest : List Delta) : Option Int64 :=
  match Opcode.ofDelta? d with
  | some op =>
    if op.takesArgument then add? 1 (Int64.ofNat (Numeral.read rest op.defaultArgument).consumed)
    else some 1
  | none => if d.index == 0 then wordComment? length offset d.weight rest else some 1

/-- The place of the next span, in words. There is none at the end of the stream, and none if a word
on the way overflows. -/
def next? (ds : List Delta) (offset : Int64) : Option Int64 :=
  match ds.drop offset.toInt.toNat with
  | [] => none
  | d :: rest => do
    let length ← wordSpan? (Int64.ofNat ds.length) offset d rest
    add? offset length

theorem add?_eq_some_iff {a b c : Int64} : add? a b = some c ↔ c.toInt = a.toInt + b.toInt := by
  unfold add?
  constructor
  · intro h
    split at h
    · cases h
      assumption
    · cases h
  · intro h
    have hlow := c.le_toInt
    have hhigh := c.toInt_lt
    have hsum : (a + b).toInt = a.toInt + b.toInt := by
      rw [Int64.toInt_add, Int.bmod_eq_of_le (by omega) (by omega)]
    rw [if_pos hsum, Option.some_inj, ← Int64.toInt_inj, hsum, h]

theorem sub?_eq_some_iff {a b c : Int64} : sub? a b = some c ↔ c.toInt = a.toInt - b.toInt := by
  unfold sub?
  constructor
  · intro h
    split at h
    · cases h
      assumption
    · cases h
  · intro h
    have hlow := c.le_toInt
    have hhigh := c.toInt_lt
    have hdifference : (a - b).toInt = a.toInt - b.toInt := by
      rw [Int64.toInt_sub, Int.bmod_eq_of_le (by omega) (by omega)]
    rw [if_pos hdifference, Option.some_inj, ← Int64.toInt_inj, hdifference, h]

theorem toInt_ofNat_add {a b : Nat} (h : a + b < 2 ^ 63) :
    (Int64.ofNat (a + b)).toInt = (Int64.ofNat a).toInt + (Int64.ofNat b).toInt := by
  rw [Int64.toInt_ofNat_of_lt h, Int64.toInt_ofNat_of_lt (by omega),
    Int64.toInt_ofNat_of_lt (by omega), Nat.cast_add]

theorem add?_ofNat {a b : Nat} (h : a + b < 2 ^ 63) :
    add? (Int64.ofNat a) (Int64.ofNat b) = some (Int64.ofNat (a + b)) :=
  add?_eq_some_iff.mpr (toInt_ofNat_add h)

theorem sub?_ofNat {a b : Nat} (h : a + b < 2 ^ 63) :
    sub? (Int64.ofNat (a + b)) (Int64.ofNat a) = some (Int64.ofNat b) := by
  apply sub?_eq_some_iff.mpr
  rw [toInt_ofNat_add h]
  omega

section Words

variable {p : Nat} {d : Delta} {rest : List Delta}

theorem wordComment?_eq_of_pos (h : p + (1 + rest.length) < 2 ^ 63) {w : Int64} (hw : 0 < w) :
    wordComment? (Int64.ofNat (p + (1 + rest.length))) (Int64.ofNat p) w rest =
      some (Int64.ofNat (1 + min w.toInt.toNat rest.length)) := by
  have hroom : (Int64.ofNat (1 + rest.length)).toInt = 1 + rest.length := by
    rw [Int64.toInt_ofNat_of_lt (by omega), Nat.cast_add, Nat.cast_one]
  have hpos : 0 < w.toInt := Int64.lt_iff_toInt_lt.mp hw
  have hword : w = Int64.ofNat w.toInt.toNat := by
    have hbound := w.toInt_lt
    rw [← Int64.toInt_inj, Int64.toInt_ofNat_of_lt] <;> omega
  rw [wordComment?, if_pos hw, sub?_ofNat h]
  show (if w < Int64.ofNat (1 + rest.length) then add? 1 w else _) = _
  by_cases hinside : w < Int64.ofNat (1 + rest.length)
  · have hlt : w.toInt < 1 + rest.length := hroom ▸ Int64.lt_iff_toInt_lt.mp hinside
    have hmin : min w.toInt.toNat rest.length = w.toInt.toNat := by omega
    have hsum := add?_ofNat (a := 1) (b := w.toInt.toNat) (by omega)
    rw [if_pos hinside, hmin, ← hsum, ← hword]
    rfl
  · have hge : ¬ w.toInt < 1 + rest.length := hroom ▸ mt Int64.lt_iff_toInt_lt.mpr hinside
    have hmin : min w.toInt.toNat rest.length = rest.length := by omega
    rw [if_neg hinside, hmin]

theorem wordComment?_eq_of_neg (h : p + (1 + rest.length) < 2 ^ 63) {w : Int64} (hpos : ¬ 0 < w)
    (hneg : w < 0) :
    wordComment? (Int64.ofNat (p + (1 + rest.length))) (Int64.ofNat p) w rest =
      some (Int64.ofNat (1 + commentTail w rest)) := by
  have hahead : (rest.takeWhile fun d => !(d.index == 0 && decide (d.weight < 0))).length =
      rest.findIdx fun d => d.index == 0 && decide (d.weight < 0) := by
    rw [List.takeWhile_eq_take_findIdx_not, List.length_take]
    simp only [Bool.not_not]
    exact Nat.min_eq_left List.findIdx_le_length
  unfold wordComment? commentTail
  rw [if_neg hpos, if_pos hneg, if_neg hpos, if_pos hneg]
  simp only [hahead]
  generalize rest.findIdx _ = ahead
  by_cases hclosed : ahead < rest.length
  · have hfirst := add?_ofNat (a := p) (b := 1) (by omega)
    have hlast := add?_ofNat (a := p + 1) (b := ahead) (by omega)
    have hstop := add?_ofNat (a := p + 1 + ahead) (b := 1) (by omega)
    have hlength := sub?_ofNat (a := p) (b := 1 + (ahead + 1)) (by omega)
    have hend : p + 1 + ahead + 1 = p + (1 + (ahead + 1)) := by omega
    rw [if_pos hclosed, Nat.min_eq_left hclosed]
    show ((add? (Int64.ofNat p) (Int64.ofNat 1)).bind fun first =>
      (add? first (Int64.ofNat ahead)).bind fun last =>
        (add? last (Int64.ofNat 1)).bind fun stop => sub? stop (Int64.ofNat p)) = _
    rw [hfirst, Option.bind_some, hlast, Option.bind_some, hstop, Option.bind_some, hend, hlength]
  · have hopen : rest.length ≤ ahead + 1 := by omega
    rw [if_neg hclosed, Nat.min_eq_right hopen]
    exact sub?_ofNat h

/-- A comment covers as many deltas in words as it does. -/
theorem wordComment?_eq (h : p + (1 + rest.length) < 2 ^ 63) (w : Int64) :
    wordComment? (Int64.ofNat (p + (1 + rest.length))) (Int64.ofNat p) w rest =
      some (Int64.ofNat (1 + commentTail w rest)) := by
  by_cases hpos : 0 < w
  · rw [wordComment?_eq_of_pos h hpos, commentTail, if_pos hpos]
  · by_cases hneg : w < 0
    · exact wordComment?_eq_of_neg h hpos hneg
    · rw [wordComment?, commentTail, if_neg hpos, if_neg hneg, if_neg hpos, if_neg hneg]
      rfl

/-- A span covers as many deltas in words as it does. -/
theorem wordSpan?_eq (h : p + (1 + rest.length) < 2 ^ 63) :
    wordSpan? (Int64.ofNat (p + (1 + rest.length))) (Int64.ofNat p) d rest =
      some (Int64.ofNat (1 + (readSpan d rest).2)) := by
  unfold wordSpan? readSpan
  cases Opcode.ofDelta? d with
  | some op =>
    cases htakes : op.takesArgument with
    | true =>
      have hle : (Numeral.read rest op.defaultArgument).consumed ≤ rest.length := by
        rw [consumed_read]
        exact (List.takeWhile_prefix _).length_le
      simp only [htakes, if_true]
      exact add?_ofNat (a := 1) (by omega)
    | false =>
      simp only [htakes]
      rfl
  | none =>
    cases d.index == 0 with
    | true => exact wordComment?_eq h d.weight
    | false => rfl

variable {ds : List Delta}

/-- In words, the next span starts where this one ends. -/
theorem next?_eq (hsmall : ds.length < 2 ^ 63) (hdrop : ds.drop p = d :: rest) :
    next? ds (Int64.ofNat p) = some (Int64.ofNat (p + (1 + (readSpan d rest).2))) := by
  have hlength := length_of_drop_eq_cons hdrop
  have hle := add_readSpan_le_length hdrop
  have hp : (Int64.ofNat p).toInt = p := Int64.toInt_ofNat_of_lt (by omega)
  rw [hlength] at hsmall
  rw [next?, hp, Int.toNat_natCast, hdrop]
  show (wordSpan? (Int64.ofNat ds.length) (Int64.ofNat p) d rest).bind _ = _
  rw [hlength, wordSpan?_eq hsmall, Option.bind_some]
  apply add?_ofNat
  omega

theorem iterate_next?_spansFrom (hsmall : ds.length < 2 ^ 63) {offset : Nat} {more : List Delta}
    (hdrop : ds.drop offset = more) (hle : offset ≤ ds.length) :
    List.iterate (fun cursor => cursor.bind (next? ds)) (some (Int64.ofNat offset))
        ((spansFrom offset more).length + 1) =
      ((spansFrom offset more).map Span.offset ++ [ds.length]).map (some ∘ Int64.ofNat) := by
  fun_induction spansFrom offset more with
  | case1 offset =>
    have hend : offset = ds.length := Nat.le_antisymm hle (List.drop_eq_nil_iff.mp hdrop)
    rw [hend]
    rfl
  | case2 offset d rest content extra hspan ih =>
    have hnext := next?_eq hsmall hdrop
    have hinside := add_readSpan_le_length hdrop
    rw [hspan] at hnext hinside
    rw [List.length_cons, List.iterate, Option.bind_some, hnext,
      ih (drop_of_drop_eq_cons hdrop extra) hinside]
    rfl

/-- The cursor goes from one span to the next and stops at the end of the stream. -/
theorem iterate_next? (hsmall : ds.length < 2 ^ 63) :
    List.iterate (fun cursor => cursor.bind (next? ds)) (some 0) ((spans ds).length + 1) =
      ((spans ds).map Span.offset ++ [ds.length]).map (some ∘ Int64.ofNat) :=
  iterate_next?_spansFrom hsmall List.drop_zero (Nat.zero_le _)

end Words

/-! ## The walk -/

/-- The walk over a stream. What is read at a place of the stream is at least one delta and does not
go beyond the end, and no word on the way to the next place overflows; so the cursor goes from span
to span and stops at the end. The spans tile the stream. Instructions come in order, each at the
start of a span and named by the delta there; and a delta that selects an operation is passed over
exactly if it is inside a comment. -/
theorem walk_tiles_stream (ds : List Delta) :
    (∀ p d rest, ds.drop p = d :: rest → p + (1 + (readSpan d rest).2) ≤ ds.length ∧
      (ds.length < 2 ^ 63 →
        next? ds (Int64.ofNat p) = some (Int64.ofNat (p + (1 + (readSpan d rest).2))))) ∧
    (ds.length < 2 ^ 63 →
      List.iterate (fun cursor => cursor.bind (next? ds)) (some 0) ((spans ds).length + 1) =
        ((spans ds).map Span.offset ++ [ds.length]).map (some ∘ Int64.ofNat)) ∧
    (∀ s ∈ spans ds, s.StandsIn ds ∧ 0 < s.length ∧ s.offset + s.length ≤ ds.length) ∧
    (spans ds).flatMap Span.positions = List.range ds.length ∧
    ((decode ds).map Instruction.offset).Pairwise (· < ·) ∧
    (∀ i ∈ decode ds, ∃ s ∈ spans ds, s.offset = i.offset ∧
      ∃ d op, ds[i.offset]? = some d ∧ Opcode.ofDelta? d = some op ∧ i.mnemonic = op.name) ∧
    ∀ p d op, ds[p]? = some d → Opcode.ofDelta? d = some op →
      ((∀ i ∈ decode ds, i.offset ≠ p) ↔
        ∃ s ∈ spans ds, s.content = .comment ∧ s.offset < p ∧ p < s.offset + s.length) := by
  refine ⟨fun p d rest hdrop => ?_, iterate_next?, fun s hs => ?_, flatMap_positions_spans ds,
    pairwise_offset_decode ds, fun i hi => exists_span_of_mem_decode hi,
    fun p d op hd hop => forall_offset_ne_iff hd hop⟩
  · exact ⟨add_readSpan_le_length hdrop, fun hsmall => next?_eq hsmall hdrop⟩
  · have h := standsIn_of_mem_spans hs
    exact ⟨h, h.pos_length, h.add_length_le⟩

/-- A comment of the largest weight ends with the stream, and the operations behind it are no
instructions. -/
theorem walk_tiles_stream_of_longest_comment :
    let ds : List Delta := [⟨0, 2 ^ 63 - 1⟩, ⟨1, 2⟩, ⟨1, -2⟩]
    ds.length < 2 ^ 63 ∧ next? ds 0 = some 3 ∧ ∀ i ∈ decode ds, i.offset ≠ 1 := by
  intro ds
  obtain ⟨hcalls, -, -, -, -, -, hinside⟩ := walk_tiles_stream ds
  have hsmall : ds.length < 2 ^ 63 := by decide
  have hread : readSpan ⟨0, 2 ^ 63 - 1⟩ [⟨1, 2⟩, ⟨1, -2⟩] = (.comment, 2) := by decide +kernel
  have hnext := (hcalls 0 _ _ rfl).2 hsmall
  rw [hread] at hnext
  have hspan : ⟨0, .comment, 3⟩ ∈ spans ds := by
    rw [spans_cons, hread]
    exact List.mem_cons_self
  exact ⟨hsmall, hnext, (hinside 1 ⟨1, 2⟩ .add rfl (by decide +kernel)).mpr
    ⟨_, hspan, rfl, Nat.one_pos, by decide⟩⟩

end Contour.Stream
