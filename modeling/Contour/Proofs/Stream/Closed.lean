import Contour.Proofs.Canonical

/-!
# Closed streams

Reading walks over a stream in spans, and how long a span is depends on what comes after it: a
number goes on as long as there are digits, and a comment covers as many deltas as it says, or as
many as there are up to the delta that closes it. A stream is closed (`IsClosed`) if the walk over
it finds the end of every comment inside it. What comes after a closed stream makes no difference to
its spans, unless it goes on with the number of the last one:

* `spansFrom_append`, `decode_append`: the two parts are read one after the other, the second as if
  it stood alone, only further on;
* `IsComment.isClosed`, `IsComment.endsPlain`: a comment is closed itself, and ends with no number;
* `decode_append_and_insert_comment`: so comments between the two parts cannot be seen.
-/

namespace Contour

/-- The instruction, found `k` deltas further on. -/
def Instruction.shift (k : Nat) (i : Instruction) : Instruction := { i with offset := k + i.offset }

namespace Stream

/-! ## Spans further on -/

/-- The span, `k` deltas further on. -/
def Span.shift (k : Nat) (s : Span) : Span := { s with offset := k + s.offset }

@[simp] theorem Span.shift_content (k : Nat) (s : Span) : (s.shift k).content = s.content := rfl

@[simp] theorem Span.shift_offset (k : Nat) (s : Span) : (s.shift k).offset = k + s.offset := rfl

theorem Span.instruction?_shift (k : Nat) (s : Span) :
    (s.shift k).instruction? = s.instruction?.map (Instruction.shift k) := by
  obtain ⟨offset, content, length⟩ := s
  cases content <;> rfl

theorem spansFrom_add (k offset : Nat) (ds : List Delta) :
    spansFrom (k + offset) ds = (spansFrom offset ds).map (Span.shift k) := by
  fun_induction spansFrom offset ds with
  | case1 => simp [spansFrom]
  | case2 offset d rest content extra hspan ih =>
    rw [spansFrom, hspan]
    simp only [Nat.add_assoc, ih, List.map_cons]
    rfl

theorem spansFrom_eq (offset : Nat) (ds : List Delta) :
    spansFrom offset ds = (spans ds).map (Span.shift offset) :=
  spansFrom_add offset 0 ds

/-- The first span of a stream, and those of the deltas after it. -/
theorem spans_cons (d : Delta) (rest : List Delta) :
    spans (d :: rest) = ⟨0, (readSpan d rest).1, 1 + (readSpan d rest).2⟩ ::
      (spans (rest.drop (readSpan d rest).2)).map (Span.shift (1 + (readSpan d rest).2)) := by
  rw [spans, spansFrom]
  simp only [spansFrom_eq, Nat.zero_add]

theorem filterMap_instruction?_spansFrom (offset : Nat) (ds : List Delta) :
    (spansFrom offset ds).filterMap Span.instruction? =
      (decode ds).map (Instruction.shift offset) := by
  rw [spansFrom_eq, List.filterMap_map, decode, List.map_filterMap]
  exact List.filterMap_congr fun s _ => Span.instruction?_shift offset s

/-! ## Closed streams -/

/-- The comment that starts with a weight ends among the deltas after its first one. -/
def Closes (w : Int64) (rest : List Delta) : Prop :=
  (0 < w → w.toInt.toNat ≤ rest.length) ∧ (w < 0 → ∃ e ∈ rest, e.index = 0 ∧ e.weight < 0)

/-- Every comment that the walk over the stream meets ends inside the stream. -/
def IsClosed (ds : List Delta) : Prop :=
  ∀ s ∈ spans ds, s.content = .comment →
    ∀ d rest, ds.drop s.offset = d :: rest → Closes d.weight rest

/-- Whether the content of a span may have a number at its end. -/
def Content.takesNumber : Content → Bool
  | .operation op _ => op.takesArgument
  | _ => false

/-- The last span of the stream, if there is one, is no operation that takes a number. -/
def EndsPlain (ds : List Delta) : Prop := ∀ s ∈ (spans ds).getLast?, s.content.takesNumber = false

theorem endsPlain_nil : EndsPlain [] := by simp [EndsPlain, spans, spansFrom]

theorem isClosed_nil : IsClosed [] := by simp [IsClosed, spans, spansFrom]

/-- A stream is closed if its first span is and the deltas after that are. -/
theorem isClosed_cons_iff {d : Delta} {rest : List Delta} :
    IsClosed (d :: rest) ↔
      ((readSpan d rest).1 = .comment → Closes d.weight rest) ∧
        IsClosed (rest.drop (readSpan d rest).2) := by
  have hdrop (k : Nat) : (d :: rest).drop (1 + (readSpan d rest).2 + k) =
      (rest.drop (readSpan d rest).2).drop k := by
    rw [List.drop_drop, Nat.add_assoc, Nat.add_comm 1, List.drop_succ_cons]
  simp only [IsClosed, spans_cons d rest, List.forall_mem_cons, List.forall_mem_map,
    Span.shift_content, Span.shift_offset, hdrop, List.drop_zero, List.cons.injEq, and_imp]
  simp

/-- What ends a stream ends what is left of it after its first span. -/
theorem EndsPlain.drop {d : Delta} {rest : List Delta} (h : EndsPlain (d :: rest)) :
    EndsPlain (rest.drop (readSpan d rest).2) := by
  intro s hs
  refine h (s.shift (1 + (readSpan d rest).2)) ?_
  rw [spans_cons, List.getLast?_cons, List.getLast?_map, Option.mem_def.mp hs]
  rfl

/-! ## What comes after a span -/

/-- Where a list is not taken whole, nothing after it is taken. -/
theorem takeWhile_append_of_mem {p : Delta → Bool} {ds : List Delta} {e : Delta} (he : e ∈ ds)
    (hp : p e = false) (suf : List Delta) :
    (ds ++ suf).takeWhile p = ds.takeWhile p ∧ (ds.takeWhile p).length < ds.length := by
  have hne : (ds.takeWhile p).length ≠ ds.length := by
    intro hlength
    have hall := (List.takeWhile_prefix p).eq_of_length hlength
    have hpe := List.takeWhile_eq_self_iff.mp hall e he
    rw [hp] at hpe
    cases hpe
  rw [List.takeWhile_append, if_neg hne]
  exact ⟨rfl, Nat.lt_of_le_of_ne (List.takeWhile_prefix p).length_le hne⟩

/-- A comment that ends inside the stream covers the same deltas, whatever comes after it. -/
theorem commentTail_append {w : Int64} {rest : List Delta} (h : Closes w rest) (suf : List Delta) :
    commentTail w (rest ++ suf) = commentTail w rest := by
  rw [commentTail, commentTail]
  by_cases hpos : 0 < w
  · have hlength := h.1 hpos
    rw [if_pos hpos, if_pos hpos, List.length_append]
    omega
  · by_cases hneg : w < 0
    · obtain ⟨e, he, hindex, hweight⟩ := h.2 hneg
      obtain ⟨htake, hlength⟩ := takeWhile_append_of_mem
        (p := fun d => !(d.index == 0 && decide (d.weight < 0))) he (by simp [hindex, hweight]) suf
      simp only [if_neg hpos, if_pos hneg, htake, List.length_append]
      omega
    · rw [if_neg hpos, if_neg hpos, if_neg hneg, if_neg hneg]

theorem commentTail_le_length (w : Int64) (rest : List Delta) :
    commentTail w rest ≤ rest.length := by
  rw [commentTail]
  split
  · exact Nat.min_le_right _ _
  · split
    · exact Nat.min_le_right _ _
    · exact Nat.zero_le _

theorem consumed_read (ds : List Delta) (default : Int) :
    (Numeral.read ds default).consumed = (Numeral.run ds).length := by
  rw [Numeral.read]
  cases Numeral.run ds <;> rfl

/-- A number that ends before the stream does, or before what comes after the stream, is the same
number there. -/
theorem read_append {rest suf : List Delta} {default : Int}
    (h : rest.drop (Numeral.read rest default).consumed ≠ [] ∨ EndsNumber suf) :
    Numeral.read (rest ++ suf) default = Numeral.read rest default := by
  have hrun : Numeral.run (rest ++ suf) = Numeral.run rest := by
    rw [Numeral.run, List.takeWhile_append]
    split
    · rename_i hwhole
      have hall : Numeral.run rest = rest := (List.takeWhile_prefix _).eq_of_length hwhole
      rcases h with hmore | hends
      · rw [consumed_read, hall, List.drop_length] at hmore
        exact absurd rfl hmore
      · rw [hall, show suf.takeWhile (·.index == 0) = [] from
          Numeral.run_append (r := []) (by simp) hends, List.append_nil]
    · rfl
  rw [Numeral.read, Numeral.read, hrun]

/-- What a delta starts: an operation with a number, an operation alone, a comment, or nothing. -/
theorem readSpan_cases (d : Delta) :
    (∃ op : Opcode, op.takesArgument = true ∧ ∀ rest, readSpan d rest =
      (.operation op (some (Numeral.read rest op.defaultArgument).value),
        (Numeral.read rest op.defaultArgument).consumed)) ∨
    (∃ op : Opcode, op.takesArgument = false ∧ ∀ rest, readSpan d rest = (.operation op none, 0)) ∨
    (∀ rest, readSpan d rest = (.comment, commentTail d.weight rest)) ∨
    ∀ rest, readSpan d rest = (.unused, 0) := by
  cases hop : Opcode.ofDelta? d with
  | some op =>
    cases htakes : op.takesArgument with
    | true => exact .inl ⟨op, htakes, fun rest => by simp [readSpan, hop, htakes]⟩
    | false => exact .inr (.inl ⟨op, htakes, fun rest => by simp [readSpan, hop, htakes]⟩)
  | none =>
    cases hindex : d.index == 0 with
    | true => exact .inr (.inr (.inl fun rest => by simp [readSpan, hop, hindex]))
    | false => exact .inr (.inr (.inr fun rest => by simp [readSpan, hop, hindex]))

theorem readSpan_snd_le_length (d : Delta) (rest : List Delta) :
    (readSpan d rest).2 ≤ rest.length := by
  obtain ⟨op, -, hread⟩ | ⟨op, -, hread⟩ | hread | hread := readSpan_cases d
  · rw [hread, consumed_read]
    exact (List.takeWhile_prefix _).length_le
  · rw [hread]
    exact Nat.zero_le _
  · rw [hread]
    exact commentTail_le_length d.weight rest
  · rw [hread]
    exact Nat.zero_le _

/-- What comes after a stream makes no difference to its first span, if that is no comment without
an end and no number that goes on. -/
theorem readSpan_append {d : Delta} {rest suf : List Delta}
    (hcomment : (readSpan d rest).1 = .comment → Closes d.weight rest)
    (hnumber : (readSpan d rest).1.takesNumber = true →
      rest.drop (readSpan d rest).2 ≠ [] ∨ EndsNumber suf) :
    readSpan d (rest ++ suf) = readSpan d rest := by
  obtain ⟨op, htakes, hread⟩ | ⟨op, -, hread⟩ | hread | hread := readSpan_cases d
  · rw [hread] at hnumber
    rw [hread, hread, read_append (hnumber htakes)]
  · rw [hread, hread]
  · rw [hread] at hcomment
    rw [hread, hread, commentTail_append (hcomment rfl)]
  · rw [hread, hread]

/-! ## Two parts -/

/-- The spans of two parts, the first of which is closed. -/
theorem spansFrom_append {pre suf : List Delta} (hclosed : IsClosed pre)
    (hboundary : EndsNumber suf ∨ EndsPlain pre) (offset : Nat) :
    spansFrom offset (pre ++ suf) =
      spansFrom offset pre ++ spansFrom (offset + pre.length) suf := by
  fun_induction spansFrom offset pre with
  | case1 offset => rfl
  | case2 offset d rest content extra hspan ih =>
    obtain ⟨hcomment, hclosed'⟩ := isClosed_cons_iff.mp hclosed
    have hle := readSpan_snd_le_length d rest
    have hsame : readSpan d (rest ++ suf) = readSpan d rest := by
      refine readSpan_append hcomment fun htakes => ?_
      rcases hboundary with hends | hplain
      · exact .inr hends
      · refine .inl fun hnil => ?_
        have hlast := hplain ⟨0, (readSpan d rest).1, 1 + (readSpan d rest).2⟩
          (by rw [spans_cons, hnil]; simp [spans, spansFrom])
        rw [htakes] at hlast
        cases hlast
    rw [hspan] at hclosed' hle
    have hboundary' : EndsNumber suf ∨ EndsPlain (rest.drop extra) := by
      refine hboundary.imp_right fun hplain => ?_
      have hdrop := hplain.drop
      rwa [hspan] at hdrop
    have hend : offset + (1 + extra) + (rest.drop extra).length = offset + (d :: rest).length := by
      rw [List.length_drop, List.length_cons]
      omega
    rw [List.cons_append, spansFrom, hsame, hspan]
    simp only [List.drop_append_of_le_length hle, ih hclosed' hboundary', hend, List.cons_append]

/-- The instructions of two parts, the first of which is closed. -/
theorem decode_append {pre suf : List Delta} (hclosed : IsClosed pre)
    (hboundary : EndsNumber suf ∨ EndsPlain pre) :
    decode (pre ++ suf) = decode pre ++ (decode suf).map (Instruction.shift pre.length) := by
  rw [decode, spans, spansFrom_append hclosed hboundary, List.filterMap_append, Nat.zero_add,
    filterMap_instruction?_spansFrom pre.length]
  rfl

/-! ## Comments -/

/-- A comment with its end, and nothing else: a positive weight and as many deltas, or a negative
weight and all up to the first delta that closes it. -/
inductive IsComment : List Delta → Prop where
  | inline {n : Int64} {hidden : List Delta} (hn : 0 < n) (h : hidden.length = n.toInt.toNat) :
      IsComment (⟨0, n⟩ :: hidden)
  | block {a b : Int64} {inside : List Delta} (ha : a < 0) (hb : b < 0)
      (h : ∀ e ∈ inside, ¬ (e.index = 0 ∧ e.weight < 0)) :
      IsComment (⟨0, a⟩ :: (inside ++ [⟨0, b⟩]))

theorem readSpan_zero (w : Int64) (rest : List Delta) :
    readSpan ⟨0, w⟩ rest = (.comment, commentTail w rest) := by
  have hop : Opcode.ofDelta? ⟨0, w⟩ = none := by
    rw [Option.eq_none_iff_forall_ne_some]
    intro op h
    exact op.index_key_ne_zero (by rw [Opcode.ofDelta?_eq_some_iff.mp h])
  simp [readSpan, hop]

/-- A comment that covers all deltas after its first one is one span. -/
theorem spans_zero_cons {w : Int64} {rest : List Delta} (h : commentTail w rest = rest.length) :
    spans (⟨0, w⟩ :: rest) = [⟨0, .comment, 1 + rest.length⟩] := by
  rw [spans_cons, readSpan_zero, h, List.drop_length]
  simp [spans, spansFrom]

namespace IsComment

/-- A comment has its end inside it, and covers no more. -/
theorem exists_eq_cons {c : List Delta} (h : IsComment c) :
    ∃ w rest, c = ⟨0, w⟩ :: rest ∧ commentTail w rest = rest.length ∧ Closes w rest := by
  cases h with
  | @inline n hidden hn h =>
    have hneg : ¬ n < 0 := fun hlt => absurd (Int64.lt_trans hn hlt) (by decide)
    refine ⟨n, hidden, rfl, ?_, fun _ => Nat.le_of_eq h.symm, fun hlt => absurd hlt hneg⟩
    rw [commentTail, if_pos hn, h, Nat.min_self]
  | @block a b inside ha hb h =>
    have hpos : ¬ 0 < a := fun hlt => absurd (Int64.lt_trans hlt ha) (by decide)
    have hinside : ∀ e ∈ inside, (!(e.index == 0 && decide (e.weight < 0))) = true := by
      intro e he
      simpa [imp_iff_not_or] using h e he
    refine ⟨a, inside ++ [⟨0, b⟩], rfl, ?_, fun hlt => absurd hlt hpos, fun _ => ?_⟩
    · rw [commentTail, if_neg hpos, if_pos ha, List.takeWhile_append_of_pos hinside]
      simp [hb]
    · exact ⟨⟨0, b⟩, by simp, rfl, hb⟩

theorem isClosed {c : List Delta} (h : IsComment c) : IsClosed c := by
  obtain ⟨w, rest, rfl, htail, hcloses⟩ := h.exists_eq_cons
  rw [isClosed_cons_iff, readSpan_zero, htail, List.drop_length]
  exact ⟨fun _ => hcloses, isClosed_nil⟩

theorem endsPlain {c : List Delta} (h : IsComment c) : EndsPlain c := by
  obtain ⟨w, rest, rfl, htail, -⟩ := h.exists_eq_cons
  rw [EndsPlain, spans_zero_cons htail]
  simp [Content.takesNumber]

theorem decode_eq_nil {c : List Delta} (h : IsComment c) : decode c = [] := by
  obtain ⟨w, rest, rfl, htail, -⟩ := h.exists_eq_cons
  rw [decode, spans_zero_cons htail]
  rfl

end IsComment

/-- Instructions have the same words further on. -/
theorem forall₂_sameWords_shift (is : List Instruction) (k k' : Nat) :
    List.Forall₂ SameWords (is.map (Instruction.shift k)) (is.map (Instruction.shift k')) := by
  rw [List.forall₂_map_left_iff, List.forall₂_map_right_iff, List.forall₂_same]
  exact fun i _ => ⟨rfl, rfl⟩

/-- After a closed stream, the deltas that come next are read as if they stood alone, unless they go
on with the number of its last instruction. So a comment can stand there, in front of anything, and
no instruction has other words for it. -/
theorem decode_append_and_insert_comment {pre : List Delta} (hclosed : IsClosed pre)
    (suf : List Delta) :
    (suf = [] ∨ (∃ d ∈ suf.head?, d.index ≠ 0) ∨ EndsPlain pre →
      decode (pre ++ suf) = decode pre ++ (decode suf).map (Instruction.shift pre.length)) ∧
    (EndsPlain pre → ∀ c, IsComment c →
      List.Forall₂ SameWords (decode (pre ++ c ++ suf)) (decode (pre ++ suf))) := by
  refine ⟨fun hboundary => decode_append hclosed ?_, fun hplain c hc => ?_⟩
  · obtain rfl | ⟨d, hd, hindex⟩ | hplain := hboundary
    · exact .inl endsNumber_nil
    · refine .inl fun e he => ?_
      rw [Option.mem_unique he hd]
      exact hindex
    · exact .inr hplain
  · have hcomment : decode (c ++ suf) = (decode suf).map (Instruction.shift c.length) := by
      rw [decode_append hc.isClosed (.inr hc.endsPlain), hc.decode_eq_nil, List.nil_append]
    have hshift : (decode (c ++ suf)).map (Instruction.shift pre.length) =
        (decode suf).map (Instruction.shift (pre.length + c.length)) := by
      rw [hcomment, List.map_map]
      exact List.map_congr_left fun i _ => by simp [Instruction.shift, Nat.add_assoc]
    rw [List.append_assoc, decode_append hclosed (.inr hplain), hshift,
      decode_append hclosed (.inr hplain)]
    exact List.rel_append (List.forall₂_same.mpr fun i _ => ⟨rfl, rfl⟩)
      (forall₂_sameWords_shift (decode suf) _ _)

/-- A comment at the start of a stream, and one after a number, a sum and a block comment, in front
of a third. -/
theorem decode_append_and_insert_comment_sum :
    let pre : List Delta := [⟨1, 1⟩, ⟨0, 4⟩, ⟨1, 2⟩, ⟨0, -1⟩, ⟨1, 3⟩, ⟨0, -7⟩]
    let suf : List Delta := [⟨0, 1⟩, ⟨1, 5⟩, ⟨1, 4⟩]
    let c : List Delta := [⟨0, 2⟩, ⟨-1, 1⟩, ⟨0, -3⟩]
    IsClosed pre ∧ EndsPlain pre ∧ IsComment c ∧
      decode (pre ++ suf) = decode pre ++ (decode suf).map (Instruction.shift 6) ∧
      List.Forall₂ SameWords (decode (pre ++ c ++ suf)) (decode (pre ++ suf)) ∧
      List.Forall₂ SameWords (decode (c ++ suf)) (decode suf) := by
  intro pre suf c
  have hspans : spans pre = [⟨0, .operation .push (some 4), 2⟩, ⟨2, .operation .add none, 1⟩,
      ⟨3, .comment, 3⟩] := by decide +kernel
  have hclosed : IsClosed pre := by
    rw [IsClosed, hspans]
    simp [pre, Closes]
  have hplain : EndsPlain pre := by
    rw [EndsPlain, hspans]
    decide
  have hc : IsComment c := .inline (by decide) (by decide)
  have h := decode_append_and_insert_comment hclosed suf
  exact ⟨hclosed, hplain, hc, h.1 (.inr (.inr hplain)), h.2 hplain c hc,
    (decode_append_and_insert_comment isClosed_nil suf).2 endsPlain_nil c hc⟩

end Stream

end Contour
