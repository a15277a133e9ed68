import Contour.Cbor
import Mathlib.Tactic.Common

/-!
# Readers that do not look ahead

An item shows where it ends: what is read from some bytes is read from them too if more bytes follow
(`IsLocal`). This is so for a head and for a string, and for every item that is read with a local
reader for what is nested in it, hence for items of any depth (`isItemReader_read`). Items up to a
break are read for as long as there are bytes, and more bytes only make that longer.

Bytes that end inside an item are therefore no item themselves (`decode?_of_isPrefix`).
-/

namespace Contour.Cbor

variable {α β : Type}

/-- What is read is read as well in front of more bytes, which are left over then. -/
structure IsLocal (read : Bytes → Option (α × Bytes)) : Prop where
  append {bs rest : Bytes} {a : α} (h : read bs = some (a, rest)) (more : Bytes) :
    read (bs ++ more) = some (a, rest ++ more)

/-! ## Readers made of others -/

theorem isLocal_pure (a : α) : IsLocal fun bs => some (a, bs) where
  append h more := by
    obtain ⟨rfl, rfl⟩ := Prod.mk.inj (Option.some.inj h)
    rfl

theorem isLocal_none : IsLocal fun _ => (none : Option (α × Bytes)) where
  append h := nomatch h

section

variable {read : Bytes → Option (α × Bytes)}

theorem IsLocal.map (hlocal : IsLocal read) (f : α → β) :
    IsLocal fun bs => (read bs).map fun r => (f r.1, r.2) where
  append h more := by
    obtain ⟨⟨a, rest⟩, ha, heq⟩ := Option.map_eq_some_iff.mp h
    obtain ⟨rfl, rfl⟩ := Prod.mk.inj heq
    simp only [hlocal.append ha more, Option.map_some]

theorem IsLocal.filter (hlocal : IsLocal read) (p : α → Bool) :
    IsLocal fun bs => (read bs).filter fun r => p r.1 where
  append h more := by
    obtain ⟨ha, hp⟩ := Option.filter_eq_some_iff.mp h
    simp only [hlocal.append ha more]
    exact Option.filter_eq_some_iff.mpr ⟨rfl, hp⟩

theorem IsLocal.bind {next : α → Bytes → Option (β × Bytes)} (hlocal : IsLocal read)
    (hnext : ∀ a, IsLocal (next a)) : IsLocal fun bs => (read bs).bind fun r => next r.1 r.2 where
  append h more := by
    obtain ⟨⟨a, middle⟩, ha, hb⟩ := Option.bind_eq_some_iff.mp h
    simp only [hlocal.append ha more, Option.bind_some]
    exact (hnext a).append hb more

end

/-! ## Heads and strings -/

theorem isLocal_take (n : Nat) : IsLocal (take? n) where
  append {bs rest taken} h more := by
    rw [take?] at h ⊢
    split_ifs at h with hn
    obtain ⟨rfl, rfl⟩ := Prod.mk.inj (Option.some.inj h)
    have hn' : n ≤ (bs ++ more).length := by
      rw [List.length_append]
      omega
    rw [if_pos hn', List.take_append_of_le_length hn, List.drop_append_of_le_length hn]

/-- What follows the first byte of a head is read according to that byte. -/
theorem isLocal_head_cons (b : UInt8) : IsLocal fun bs => head? (b :: bs) := by
  have hwide (width : Nat) : IsLocal fun bs => (take? width bs).map fun r =>
      ((⟨b.toNat / 32, b.toNat % 32, ofBigEndian r.1⟩ : Head), r.2) :=
    (isLocal_take width).map fun taken => Head.mk (b.toNat / 32) (b.toNat % 32) (ofBigEndian taken)
  simp only [head?]
  split_ifs
  · exact isLocal_pure _
  · exact (hwide 1).filter fun h => !(b.toNat / 32 == 7 && decide (h.value < 32))
  · exact hwide 2
  · exact hwide 4
  · exact hwide 8
  · exact isLocal_pure _
  · exact isLocal_none

theorem isLocal_head : IsLocal head? where
  append {bs rest _} h more := by
    cases bs with
    | nil => cases h
    | cons b bs => exact (isLocal_head_cons b).append h more

/-- Bytes that do not start with a break do not start with one in front of more bytes. -/
theorem ne_break_append {bs : Bytes} (hne : bs ≠ []) (hbreak : ∀ bs', bs = 0xff :: bs' → False)
    (more : Bytes) : ∀ bs', bs ++ more = 0xff :: bs' → False := by
  intro bs' h
  obtain ⟨b, bs, rfl⟩ := List.exists_cons_of_ne_nil hne
  obtain ⟨rfl, -⟩ := List.cons.inj h
  exact hbreak bs rfl

/-- The chunks of a string are read in front of more bytes, and while more are watched for. -/
theorem chunks_append {major fuel fuel' : Nat} (hfuel : fuel ≤ fuel') {bs rest : Bytes}
    {cs : List Bytes} (hread : chunks major fuel bs = some (cs, rest)) (more : Bytes) :
    chunks major fuel' (bs ++ more) = some (cs, rest ++ more) := by
  fun_induction chunks major fuel bs generalizing fuel' cs rest with
  | case1 fuel bs =>
    obtain ⟨rfl, rfl⟩ := Prod.mk.inj (Option.some.inj hread)
    rw [List.cons_append, chunks]
  | case2 => cases hread
  | case3 fuel bs hbreak ih =>
    obtain ⟨⟨h, middle⟩, hhead, hread⟩ := Option.bind_eq_some_iff.mp hread
    obtain ⟨watched, rfl⟩ := Nat.exists_eq_succ_of_ne_zero (Nat.ne_zero_of_lt hfuel)
    have hne : bs ≠ [] := by
      rintro rfl
      cases hhead
    simp only at hread
    split_ifs at hread with hchunk
    obtain ⟨⟨chunk, middle'⟩, htake, hread⟩ := Option.bind_eq_some_iff.mp hread
    obtain ⟨⟨cs', last⟩, hchunks, hread⟩ := Option.bind_eq_some_iff.mp hread
    obtain ⟨rfl, rfl⟩ := Prod.mk.inj (Option.some.inj hread)
    rw [chunks, isLocal_head.append hhead more]
    · simp only [Option.bind_eq_bind, Option.bind_some, if_pos hchunk,
        (isLocal_take h.value).append htake more, ih _ (Nat.le_of_succ_le_succ hfuel) hchunks]
      rfl
    · exact ne_break_append hne hbreak more

theorem isLocal_string (h : Head) : IsLocal (string? h) where
  append {bs rest cs} hread more := by
    rw [string?] at hread ⊢
    split_ifs at hread ⊢ with hindefinite
    · exact chunks_append (by rw [List.length_append]; omega) hread more
    · exact ((isLocal_take h.value).map fun chunk => [chunk]).append hread more

/-! ## Items in arrays and maps -/

/-- A local reader that reads nothing where there are no bytes. -/
structure IsItemReader (read : Reader) : Prop extends IsLocal read where
  nil : read [] = none

theorem isLocal_many {read : Reader} (hlocal : IsLocal read) (n : Nat) :
    IsLocal (many read n) := by
  induction n with
  | zero => exact isLocal_pure []
  | succ n ih => exact hlocal.bind fun i => ih.bind fun is => isLocal_pure (i :: is)

/-- Items up to a break are read in front of more bytes, and while more are watched for. -/
theorem untilBreak_append {read : Reader} (hread : IsItemReader read) {fuel fuel' : Nat}
    (hfuel : fuel ≤ fuel') {bs rest : Bytes} {is : List Item}
    (h : untilBreak read fuel bs = some (is, rest)) (more : Bytes) :
    untilBreak read fuel' (bs ++ more) = some (is, rest ++ more) := by
  fun_induction untilBreak read fuel bs generalizing fuel' is rest with
  | case1 fuel bs =>
    obtain ⟨rfl, rfl⟩ := Prod.mk.inj (Option.some.inj h)
    rw [List.cons_append, untilBreak]
  | case2 => cases h
  | case3 fuel bs hbreak ih =>
    obtain ⟨⟨i, middle⟩, hi, h⟩ := Option.bind_eq_some_iff.mp h
    obtain ⟨⟨is', last⟩, his, h⟩ := Option.bind_eq_some_iff.mp h
    obtain ⟨rfl, rfl⟩ := Prod.mk.inj (Option.some.inj h)
    obtain ⟨watched, rfl⟩ := Nat.exists_eq_succ_of_ne_zero (Nat.ne_zero_of_lt hfuel)
    have hne : bs ≠ [] := by
      rintro rfl
      rw [hread.nil] at hi
      cases hi
    rw [untilBreak, hread.append hi more]
    · simp only [Option.bind_eq_bind, Option.bind_some, ih _ (Nat.le_of_succ_le_succ hfuel) his]
      rfl
    · exact ne_break_append hne hbreak more

theorem isLocal_elements {read : Reader} (hread : IsItemReader read) (per : Nat) (h : Head) :
    IsLocal (elements read per h) where
  append {bs rest is} hitems more := by
    rw [elements] at hitems ⊢
    split_ifs at hitems ⊢ with hindefinite hvalue
    · obtain ⟨his, hcount⟩ := Option.filter_eq_some_iff.mp hitems
      rw [untilBreak_append hread (by rw [List.length_append]; omega) his more]
      exact Option.filter_eq_some_iff.mpr ⟨rfl, hcount⟩
    · exact (isLocal_many hread.toIsLocal _).append hitems more

/-! ## Items -/

section

variable {inner : Option Reader}

/-- An array or a map, unless the nesting is too deep. -/
theorem isLocal_nested (hinner : ∀ read ∈ inner, IsItemReader read) (per : Nat) (h : Head)
    (item : List Item → Item) :
    IsLocal fun bs => inner.bind fun read =>
      (elements read per h bs).bind fun r => some (item r.1, r.2) := by
  cases inner with
  | none => exact isLocal_none
  | some read => exact (isLocal_elements (hinner read rfl) per h).bind fun is => isLocal_pure _

theorem isLocal_untagged (hinner : ∀ read ∈ inner, IsItemReader read) :
    IsLocal (untagged inner) where
  append {bs rest i} hread more := by
    rw [untagged] at hread ⊢
    obtain ⟨⟨⟨major, info, value⟩, middle⟩, hhead, hread⟩ := Option.bind_eq_some_iff.mp hread
    rw [isLocal_head.append hhead more]
    match major with
    | 0 => exact (isLocal_pure _).append hread more
    | 1 => exact (isLocal_pure _).append hread more
    | 2 =>
      have hlocal := (isLocal_string ⟨2, info, value⟩).map fun cs => Item.bytes cs.flatten
      exact hlocal.append hread more
    | 3 =>
      have hlocal := (isLocal_string ⟨3, info, value⟩).map fun cs =>
        Item.text cs.flatten (cs.all Utf8.isValid)
      exact hlocal.append hread more
    | 4 => exact (isLocal_nested hinner 1 ⟨4, info, value⟩ .array).append hread more
    | 5 => exact (isLocal_nested hinner 2 ⟨5, info, value⟩ .map).append hread more
    | 6 => cases hread
    | major + 7 => exact (isLocal_pure _).append hread more

/-- Reads what a tag stands before. -/
def tagContent (inner : Option Reader) (bs : Bytes) : Option (Item × Bytes) :=
  if startsTag bs then inner.bind (· bs) else untagged inner bs

theorem tagged_eq (inner : Option Reader) (bs : Bytes) :
    tagged inner bs =
      if startsTag bs then
        (head? bs).bind fun r =>
          (tagContent inner r.2).bind fun r' => some (.tag r.1.value r'.1, r'.2)
      else untagged inner bs := by
  rw [tagged]
  split_ifs
  · refine congrArg (head? bs).bind (funext fun r => ?_)
    rw [tagContent]
    split_ifs with htag
    · simp only [htag]
      cases inner <;> rfl
    · simp only [htag]
      rfl
  · rfl

theorem isLocal_tagContent (hinner : ∀ read ∈ inner, IsItemReader read) :
    IsLocal (tagContent inner) where
  append {bs rest i} hread more := by
    cases bs with
    | nil => cases hread
    | cons b bs =>
      have hstarts : startsTag (b :: bs ++ more) = startsTag (b :: bs) := rfl
      rw [tagContent] at hread ⊢
      rw [hstarts]
      split_ifs at hread ⊢ with htag
      · obtain ⟨read, hsome, hread⟩ := Option.bind_eq_some_iff.mp hread
        rw [hsome, Option.bind_some]
        exact (hinner read hsome).append hread more
      · exact (isLocal_untagged hinner).append hread more

theorem isItemReader_tagged (hinner : ∀ read ∈ inner, IsItemReader read) :
    IsItemReader (tagged inner) where
  append {bs rest i} hread more := by
    cases bs with
    | nil => cases hread
    | cons b bs =>
      have hstarts : startsTag (b :: bs ++ more) = startsTag (b :: bs) := rfl
      rw [tagged_eq] at hread ⊢
      rw [hstarts]
      split_ifs at hread ⊢ with htag
      · have hlocal := isLocal_head.bind fun h => (isLocal_tagContent hinner).bind fun content =>
          isLocal_pure (Item.tag h.value content)
        exact hlocal.append hread more
      · exact (isLocal_untagged hinner).append hread more
  nil := rfl

end

/-- An item is read alike whatever follows it. -/
theorem isItemReader_read (levels : Nat) : IsItemReader (Item.read levels) := by
  induction levels with
  | zero => exact isItemReader_tagged (by simp)
  | succ levels ih => exact isItemReader_tagged (by simpa using ih)

/-! ## All the bytes -/

theorem decode?_eq_none {bs : Bytes} (h : ∀ i, Item.read maxLevels bs ≠ some (i, [])) :
    decode? bs = none := by
  rw [decode?]
  split
  · rename_i i hread
    exact absurd hread (h i)
  · rfl

/-- Where bytes are one item, or none at all, only a part of them is none. -/
theorem decode?_of_isPrefix {start bs : Bytes} (hstart : start <+: bs) (hne : start ≠ bs)
    (hwhole : ∀ i rest, Item.read maxLevels bs = some (i, rest) → rest = []) :
    decode? start = none := by
  obtain ⟨more, rfl⟩ := hstart
  refine decode?_eq_none fun i hread => hne ?_
  have hmore := hwhole i _ ((isItemReader_read maxLevels).append hread more)
  rw [List.nil_append] at hmore
  rw [hmore, List.append_nil]

end Contour.Cbor
