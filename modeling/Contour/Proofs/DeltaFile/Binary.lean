import Contour.DeltaFile.Binary
import Contour.Proofs.Cbor
import Contour.Proofs.Cbor.Local
import Contour.Proofs.Digest
import Contour.Shelf

/-!
# Programs in binary files

The bytes of a program are read as the record that was written (`read_encode`), which stands for the
program (`record?_recordItem`). Writing has no limit, but reading has one: a program of more than
`maxElements` deltas is written, and what was written is refused (`decode_encode`). The bytes are
different for different programs of any length (`encode_injective`), since those of one delta show
where they end (`prefixFree_encodeDelta`). Those of a whole program do so too: with bytes missing at
the end or added there they are refused (`decode_damaged`).
-/

namespace Contour.DeltaFile.Binary

open Cbor

/-! ## One delta -/

/-- The item that the bytes of a delta are read as. -/
def deltaItem (d : Delta) : Item := .array [.ofInt d.index.toInt, .ofInt d.weight.toInt]

theorem word?_ofInt (w : Int64) : word? (.ofInt w.toInt) = some w := by
  rw [Item.ofInt]
  split_ifs with hneg
  · have hint : (-1 - ((-w.toInt - 1).toNat : Int)) = w.toInt := by omega
    rw [word?, hint, Word.ofInt?_toInt]
  · have hint : (w.toInt.toNat : Int) = w.toInt := by omega
    rw [word?, hint, Word.ofInt?_toInt]

theorem delta?_deltaItem (d : Delta) : delta? (deltaItem d) = some d := by
  simp [deltaItem, delta?, word?_ofInt]

/-- A word is read back at any depth. -/
theorem read_int_toInt (levels : Nat) (w : Int64) (rest : Bytes) :
    Item.read levels (int w.toInt ++ rest) = some (.ofInt w.toInt, rest) := by
  have hlow := w.le_toInt
  have hhigh := w.toInt_lt
  cases levels <;> exact tagged_int _ (by omega) (by omega) rest

theorem read_encodeDelta (levels : Nat) (d : Delta) (rest : Bytes) :
    Item.read (levels + 1) (encodeDelta d ++ rest) = some (deltaItem d, rest) := by
  rw [encodeDelta, List.append_assoc, List.append_assoc, Item.read, tagged_array]
  simp [many, read_int_toInt, deltaItem, maxElements]

theorem encodeDelta_ne_nil (d : Delta) : encodeDelta d ≠ [] := by
  simp [encodeDelta, head_ne_nil]

/-- Reads one delta and gives the bytes after it. -/
def readDelta? (bs : Bytes) : Option (Delta × Bytes) :=
  (Item.read 1 bs).bind fun found => (delta? found.1).map (·, found.2)

theorem prefixFree_encodeDelta : PrefixFree encodeDelta := by
  refine PrefixFree.of_read readDelta? encodeDelta_ne_nil fun d rest => ?_
  rw [readDelta?, read_encodeDelta, Option.bind_some, delta?_deltaItem, Option.map_some]

/-! ## Records -/

/-- The item that the bytes of a program are read as. -/
def recordItem (ds : List Delta) : Item :=
  .map [.ofInt 1, .ofInt version, .ofInt 2, .array (ds.map deltaItem)]

theorem mapM_delta?_map_deltaItem (ds : List Delta) : (ds.map deltaItem).mapM delta? = some ds := by
  induction ds with
  | nil => rfl
  | cons d ds ih => simp [delta?_deltaItem, ih]

theorem record?_recordItem (ds : List Delta) :
    record? (recordItem ds) = some ⟨some 1, some ds⟩ := by
  have hdeltas : deltas? (.array (ds.map deltaItem)) = some ds := mapM_delta?_map_deltaItem ds
  have hversion : word? (.ofInt version) = some 1 := word?_ofInt 1
  have hfield₁ : field? (.ofInt 1) = some 1 := rfl
  have hfield₂ : field? (.ofInt 2) = some 2 := rfl
  simp [record?, recordItem, fields?, hfield₁, hfield₂, hversion, hdeltas]

/-- The bytes of a program are read as far as the head of its deltas says, if that is not too far,
whatever follows them. The head holds the number of deltas modulo `2 ^ 64`. -/
theorem read_encode_append (ds : List Delta) (rest : Bytes) :
    Item.read maxLevels (encode ds ++ rest) =
      if ds.length % 2 ^ 64 ≤ maxElements then
        some (recordItem (ds.take (ds.length % 2 ^ 64)),
          (ds.drop (ds.length % 2 ^ 64)).flatMap encodeDelta ++ rest)
      else none := by
  set k := ds.length % 2 ^ 64 with hk
  have hmany : many (Item.read 30) k (ds.flatMap encodeDelta ++ rest) =
      some ((ds.take k).map deltaItem, (ds.drop k).flatMap encodeDelta ++ rest) :=
    many_flatMap_of_le (read_encodeDelta 29) (Nat.mod_le _ _) rest
  have hone (rest : Bytes) : Item.read 31 (int 1 ++ rest) = some (.ofInt 1, rest) :=
    read_int_toInt 31 1 rest
  have htwo (rest : Bytes) : Item.read 31 (int 2 ++ rest) = some (.ofInt 2, rest) :=
    read_int_toInt 31 2 rest
  have hdeltas : Item.read 31 (head 4 ds.length ++ (ds.flatMap encodeDelta ++ rest)) =
      if k ≤ maxElements then
        some (.array ((ds.take k).map deltaItem), (ds.drop k).flatMap encodeDelta ++ rest)
      else none := by
    rw [Item.read, tagged_array, ← hk, hmany, Option.map_some]
  rw [encode, maxLevels, Item.read]
  simp only [List.append_assoc, version]
  rw [tagged_map, if_pos (by decide), show 2 * (2 % 2 ^ 64) = 4 from rfl]
  simp only [many, hone, htwo, hdeltas, Option.bind_eq_bind, Option.bind_some, Option.pure_def]
  split_ifs
  · simp [recordItem, version]
  · simp

theorem read_encode (ds : List Delta) :
    Item.read maxLevels (encode ds) =
      if ds.length % 2 ^ 64 ≤ maxElements then
        some (recordItem (ds.take (ds.length % 2 ^ 64)),
          (ds.drop (ds.length % 2 ^ 64)).flatMap encodeDelta)
      else none := by
  have h := read_encode_append ds []
  rwa [List.append_nil, List.append_nil] at h

theorem decode?_encode (ds : List Delta) :
    decode? (encode ds) = if ds.length ≤ maxElements then some (recordItem ds) else none := by
  rw [decode?, read_encode]
  by_cases hlength : ds.length ≤ maxElements
  · have hmod : ds.length % 2 ^ 64 = ds.length := by
      rw [maxElements] at hlength
      omega
    rw [hmod, if_pos hlength, List.take_length, List.drop_length, if_pos hlength]
    rfl
  · rw [if_neg hlength]
    -- A length that was cut off in the head may be small again, but then deltas are left over.
    by_cases hmod : ds.length % 2 ^ 64 ≤ maxElements
    · rw [if_pos hmod]
      cases hrest : ds.drop (ds.length % 2 ^ 64) with
      | nil =>
        have := List.drop_eq_nil_iff.mp hrest
        omega
      | cons d rest =>
        cases hbytes : (d :: rest).flatMap encodeDelta with
        | nil => exact absurd (List.append_eq_nil_iff.mp hbytes).1 (encodeDelta_ne_nil d)
        | cons b bs => rfl
    · rw [if_neg hmod]

/-- A program that is not too long is read back, and a longer one is refused. -/
theorem decode_encode (ds : List Delta) :
    decode (encode ds) = if ds.length ≤ maxElements then .ok ds else .error .malformed := by
  rw [decode, decode?_encode]
  split_ifs
  · rw [Option.bind_some, record?_recordItem]
    rfl
  · rfl

/-! ## Different programs -/

theorem encode_injective : Function.Injective encode := by
  intro ds ds' h
  simp only [encode, List.append_assoc, List.append_cancel_left_eq] at h
  obtain ⟨info, -, hread⟩ := head?_head (by omega : 4 < 7) ds.length (ds.flatMap encodeDelta)
  obtain ⟨info', -, hread'⟩ := head?_head (by omega : 4 < 7) ds'.length (ds'.flatMap encodeDelta)
  rw [h, hread'] at hread
  simp only [Option.some.injEq, Prod.mk.injEq] at hread
  exact prefixFree_encodeDelta.flatMap_injective hread.2.symm

/-- A program is read back from the bytes that are written for it if it has at most `maxElements`
deltas; the bytes of a longer program are written and then refused. Different programs of any
length have different bytes, and the same hash only if the digests of these bytes collide. -/
theorem decode_encode_and_encode_ne (ds ds' : List Delta) :
    (decode (encode ds) = if ds.length ≤ maxElements then .ok ds else .error .malformed) ∧
      (ds ≠ ds' → encode ds ≠ encode ds') ∧
      (ds ≠ ds' → Shelf.hash ds = Shelf.hash ds' → Digest.Collides (encode ds) (encode ds')) := by
  refine ⟨decode_encode ds, fun hne => encode_injective.ne hne, fun hne hhash => ?_⟩
  exact ⟨encode_injective.ne hne, Digest.hex_inj hhash⟩

/-- One delta too many, and the program is not read back. -/
theorem decode_encode_and_encode_ne_one_too_many :
    decode (encode (List.replicate 131073 ⟨1, 5⟩)) = .error .malformed ∧
      encode (List.replicate 131073 ⟨1, 5⟩) ≠ encode [] := by
  obtain ⟨hdecode, hbytes, -⟩ := decode_encode_and_encode_ne (List.replicate 131073 ⟨1, 5⟩) []
  rw [if_neg (by rw [List.length_replicate, maxElements]; omega)] at hdecode
  exact ⟨hdecode, hbytes (List.ne_nil_of_length_pos (by rw [List.length_replicate]; omega))⟩

/-! ## Damaged files -/

theorem decode_of_decode?_eq_none {bs : Bytes} (h : decode? bs = none) :
    decode bs = .error .malformed := by
  rw [decode, h]
  rfl

/-- A damaged length is noticed: the bytes of a program are refused if some are missing at the end,
even all of them, and if others follow. The head of the deltas can hold every length that a program
has in a memory with addresses of 64 bits. -/
theorem decode_damaged (ds : List Delta) :
    (ds.length < 2 ^ 64 → ∀ start, start <+: encode ds → start ≠ encode ds →
      decode start = .error .malformed) ∧
    ∀ more, more ≠ [] → decode (encode ds ++ more) = .error .malformed := by
  refine ⟨fun hlength start hstart hne => ?_, fun more hmore => ?_⟩
  · refine decode_of_decode?_eq_none (decode?_of_isPrefix hstart hne fun i rest hread => ?_)
    rw [read_encode, Nat.mod_eq_of_lt hlength, List.drop_length] at hread
    split_ifs at hread
    exact (Prod.mk.inj (Option.some.inj hread)).2.symm
  · refine decode_of_decode?_eq_none (decode?_eq_none fun i hread => hmore ?_)
    rw [read_encode_append] at hread
    split_ifs at hread
    exact (List.append_eq_nil_iff.mp (Prod.mk.inj (Option.some.inj hread)).2).2

/-- A program of two deltas without its last byte, without its last delta, without anything, and
with a byte too many. -/
theorem decode_damaged_two :
    let bs := encode [⟨1, 1⟩, ⟨0, -300⟩]
    decode bs.dropLast = .error .malformed ∧ decode (bs.take 8) = .error .malformed ∧
      decode [] = .error .malformed ∧ decode (bs ++ [0]) = .error .malformed := by
  intro bs
  obtain ⟨hshort, hlong⟩ := decode_damaged [⟨1, 1⟩, ⟨0, -300⟩]
  have hshort := hshort (by decide)
  exact ⟨hshort _ (List.dropLast_prefix bs) (by decide +kernel),
    hshort _ (List.take_prefix 8 bs) (by decide +kernel),
    hshort _ List.nil_prefix (by decide +kernel), hlong [0] (by decide)⟩

end Contour.DeltaFile.Binary
