import Contour.Text.Utf8

/-!
# Concise binary objects

Data items in the binary encoding CBOR. `Cbor.head` and `Cbor.int` write the shortest forms, and
`Item.read` reads any well-formed item: with definite or indefinite length, and with numbers in any
width. Arrays and maps hold at most `maxElements` elements or pairs, and nest at most `maxLevels`
deep.
-/

namespace Contour.Cbor

/-- The bytes of a program file. -/
abbrev Bytes := List UInt8

/-! ## Writing -/

/-- The last `width` bytes of a number, most significant first. -/
def bigEndian : (width : Nat) → Nat → Bytes
  | 0, _ => []
  | w + 1, n => bigEndian w (n / 256) ++ [UInt8.ofNat (n % 256)]

/-- The shortest head of an item of a major type. -/
def head (major n : Nat) : Bytes :=
  let first (info : Nat) : UInt8 := UInt8.ofNat (major * 32 + info)
  if n < 24 then [first n]
  else if n < 256 then first 24 :: bigEndian 1 n
  else if n < 65536 then first 25 :: bigEndian 2 n
  else if n < 4294967296 then first 26 :: bigEndian 4 n
  else first 27 :: bigEndian 8 n

/-- A whole number in its shortest form. -/
def int (n : Int) : Bytes := if n < 0 then head 1 (-n - 1).toNat else head 0 n.toNat

/-! ## Items -/

/-- A data item. -/
inductive Item where
  | unsigned (n : Nat)
  /-- The number `-1 - n`. -/
  | negative (n : Nat)
  | bytes (content : Bytes)
  /-- A text, and whether it is well-formed UTF-8. -/
  | text (content : Bytes) (valid : Bool)
  | array (items : List Item)
  /-- A map, keys and values in turn. -/
  | map (items : List Item)
  | tag (number : Nat) (content : Item)
  | simple (n : Nat)
  | float
deriving Repr, Inhabited

/-- How much an array or a map may hold. -/
def maxElements : Nat := 131072

/-- How deep arrays and maps may nest. -/
def maxLevels : Nat := 32

/-- The head of an item: its major type, its additional information, and the number that it
gives. -/
structure Head where
  major : Nat
  info : Nat
  value : Nat
deriving DecidableEq, Repr

/-- Whether the item has indefinite length. -/
def Head.isIndefinite (h : Head) : Bool := h.info == 31

/-- The number that bytes write, most significant first. -/
def ofBigEndian (bs : Bytes) : Nat := bs.foldl (fun n b => n * 256 + b.toNat) 0

/-- Takes exactly `n` bytes. -/
def take? (n : Nat) (bs : Bytes) : Option (Bytes × Bytes) :=
  if n ≤ bs.length then some (bs.take n, bs.drop n) else none

/-- Reads a head. -/
def head? : Bytes → Option (Head × Bytes)
  | [] => none
  | b :: rest =>
    let major := b.toNat / 32
    let info := b.toNat % 32
    let wide (width : Nat) : Option (Head × Bytes) :=
      (take? width rest).map fun (bs, rest) => (⟨major, info, ofBigEndian bs⟩, rest)
    if info < 24 then some (⟨major, info, info⟩, rest)
    else if info = 24 then
      (wide 1).filter fun (h, _) => !(major == 7 && h.value < 32)
    else if info = 25 then wide 2
    else if info = 26 then wide 4
    else if info = 27 then wide 8
    else if info = 31 ∧ 2 ≤ major ∧ major ≤ 5 then some (⟨major, info, 0⟩, rest)
    else none

/-- Reads an item and gives the bytes after it. -/
abbrev Reader := Bytes → Option (Item × Bytes)

/-- Reads `n` items. -/
def many (read : Reader) : (n : Nat) → Bytes → Option (List Item × Bytes)
  | 0, bs => some ([], bs)
  | n + 1, bs => do
    let (i, bs) ← read bs
    let (is, bs) ← many read n bs
    return (i :: is, bs)

/-- Reads items up to a break, at most `fuel` of them. -/
def untilBreak (read : Reader) : (fuel : Nat) → Bytes → Option (List Item × Bytes)
  | _, 0xff :: bs => some ([], bs)
  | 0, _ => none
  | fuel + 1, bs => do
    let (i, bs) ← read bs
    let (is, bs) ← untilBreak read fuel bs
    return (i :: is, bs)

/-- Reads the chunks of a string of indefinite length, which are strings of the same major type. -/
def chunks (major : Nat) : (fuel : Nat) → Bytes → Option (List Bytes × Bytes)
  | _, 0xff :: bs => some ([], bs)
  | 0, _ => none
  | fuel + 1, bs => do
    let (h, bs) ← head? bs
    if h.major = major ∧ !h.isIndefinite then
      let (chunk, bs) ← take? h.value bs
      let (more, bs) ← chunks major fuel bs
      return (chunk :: more, bs)
    else none

/-- Reads the content of a string. -/
def string? (h : Head) (bs : Bytes) : Option (List Bytes × Bytes) :=
  if h.isIndefinite then chunks h.major bs.length bs
  else (take? h.value bs).map fun (chunk, bs) => ([chunk], bs)

/-- Reads the items in an array or a map, `per` of which make up an element. -/
def elements (read : Reader) (per : Nat) (h : Head) (bs : Bytes) : Option (List Item × Bytes) :=
  if h.isIndefinite then
    (untilBreak read bs.length bs).filter fun (is, _) =>
      is.length % per == 0 && is.length ≤ per * maxElements
  else if h.value ≤ maxElements then many read (per * h.value) bs
  else none

/-- Reads an item that has no tag; `inner` reads what is nested in it, unless the nesting is too
deep. -/
def untagged (inner : Option Reader) (bs : Bytes) : Option (Item × Bytes) := do
  let (h, bs) ← head? bs
  match h.major with
  | 0 => some (.unsigned h.value, bs)
  | 1 => some (.negative h.value, bs)
  | 2 => (string? h bs).map fun (cs, bs) => (.bytes cs.flatten, bs)
  | 3 => (string? h bs).map fun (cs, bs) => (.text cs.flatten (cs.all Utf8.isValid), bs)
  | 4 => do
    let (is, bs) ← elements (← inner) 1 h bs
    return (.array is, bs)
  | 5 => do
    let (is, bs) ← elements (← inner) 2 h bs
    return (.map is, bs)
  | 6 => none
  | _ => some (if 25 ≤ h.info then .float else .simple h.value, bs)

/-- Whether the next item has a tag. -/
def startsTag : Bytes → Bool
  | [] => false
  | b :: _ => b.toNat / 32 == 6

/-- Reads an item. A tag inside a tag counts as one more level of nesting. -/
def tagged (inner : Option Reader) (bs : Bytes) : Option (Item × Bytes) :=
  if startsTag bs then do
    let (h, bs) ← head? bs
    let (content, bs) ← if startsTag bs then (← inner) bs else untagged inner bs
    return (.tag h.value content, bs)
  else untagged inner bs

/-- Reads an item in which arrays and maps nest at most `levels` deep. -/
def Item.read : (levels : Nat) → Reader
  | 0 => tagged none
  | levels + 1 => tagged (some (Item.read levels))

/-- Reads one item that takes all the bytes. -/
def decode? (bs : Bytes) : Option Item :=
  match Item.read maxLevels bs with
  | some (i, []) => some i
  | _ => none

end Contour.Cbor
