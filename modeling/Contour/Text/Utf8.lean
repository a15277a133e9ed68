/-!
# UTF-8

Characters as bytes. `encode` writes a text, `decode` reads any bytes, taking each byte that belongs
to no well-formed sequence for the replacement character, and `isValid` says that there is no such
byte.
-/

namespace Contour.Utf8

/-- The character that stands for a byte outside every well-formed sequence. -/
def replacement : Char := Char.ofNat 0xfffd

/-- The bytes of one character. -/
def encodeChar (c : Char) : List UInt8 :=
  let n := c.toNat
  let tail (shift : Nat) : UInt8 := UInt8.ofNat (0x80 + n / shift % 64)
  if n < 0x80 then [UInt8.ofNat n]
  else if n < 0x800 then [UInt8.ofNat (0xc0 + n / 64), tail 1]
  else if n < 0x10000 then [UInt8.ofNat (0xe0 + n / 4096), tail 64, tail 1]
  else [UInt8.ofNat (0xf0 + n / 262144), tail 4096, tail 64, tail 1]

/-- The bytes of a text. -/
def encode (s : List Char) : List UInt8 := s.flatMap encodeChar

/-- The low six bits of a continuation byte between two bounds. -/
def continuation? (lo hi : UInt8) (b : UInt8) : Option Nat :=
  if lo ≤ b && b ≤ hi then some (b.toNat % 64) else none

/-- The bounds of the second byte after a first byte: overlong forms, surrogates and numbers beyond
the last character are left out. -/
def secondBounds (b : UInt8) : UInt8 × UInt8 :=
  if b == 0xe0 then (0xa0, 0xbf)
  else if b == 0xed then (0x80, 0x9f)
  else if b == 0xf0 then (0x90, 0xbf)
  else if b == 0xf4 then (0x80, 0x8f)
  else (0x80, 0xbf)

/-- Reads the well-formed sequence at the start, if there is one. -/
def char? : List UInt8 → Option (Char × List UInt8)
  | [] => none
  | a :: rest =>
    if a < 0x80 then some (Char.ofNat a.toNat, rest)
    else if 0xc2 ≤ a && a ≤ 0xdf then
      match rest with
      | b :: rest => do
        let y ← continuation? 0x80 0xbf b
        some (Char.ofNat ((a.toNat - 0xc0) * 64 + y), rest)
      | _ => none
    else if 0xe0 ≤ a && a ≤ 0xef then
      match rest with
      | b :: c :: rest => do
        let y ← continuation? (secondBounds a).1 (secondBounds a).2 b
        let z ← continuation? 0x80 0xbf c
        some (Char.ofNat ((a.toNat - 0xe0) * 4096 + y * 64 + z), rest)
      | _ => none
    else if 0xf0 ≤ a && a ≤ 0xf4 then
      match rest with
      | b :: c :: d :: rest => do
        let y ← continuation? (secondBounds a).1 (secondBounds a).2 b
        let z ← continuation? 0x80 0xbf c
        let w ← continuation? 0x80 0xbf d
        some (Char.ofNat ((a.toNat - 0xf0) * 262144 + y * 4096 + z * 64 + w), rest)
      | _ => none
    else none

/-- Reads bytes as characters for at most `fuel` characters. -/
def decodeFor : (fuel : Nat) → List UInt8 → List Char
  | 0, _ => []
  | _, [] => []
  | fuel + 1, b :: rest =>
    match char? (b :: rest) with
    | some (c, rest) => c :: decodeFor fuel rest
    | none => replacement :: decodeFor fuel rest

/-- Reads bytes as characters; every character takes at least one byte. -/
def decode (bytes : List UInt8) : List Char := decodeFor bytes.length bytes

/-- Whether bytes are well-formed for at most `fuel` characters. -/
def isValidFor : (fuel : Nat) → List UInt8 → Bool
  | _, [] => true
  | 0, _ => false
  | fuel + 1, bytes =>
    match char? bytes with
    | some (_, rest) => isValidFor fuel rest
    | none => false

/-- Whether every byte belongs to a well-formed sequence. -/
def isValid (bytes : List UInt8) : Bool := isValidFor bytes.length bytes

end Contour.Utf8
