import Contour.Cbor
import Contour.Text.Decimal

/-!
# Digests

The SHA-256 digest of a list of bytes. The message is padded to blocks of 64 bytes (`pad`), and each
block is mixed into eight words of state (`compress`) by sixty-four rounds.
-/

namespace Contour.Digest

/-- The words that the rounds add: fractional parts of cube roots of primes. -/
def roundWords : Array UInt32 := #[
  0x428a2f98, 0x71374491, 0xb5c0fbcf, 0xe9b5dba5, 0x3956c25b, 0x59f111f1, 0x923f82a4, 0xab1c5ed5,
  0xd807aa98, 0x12835b01, 0x243185be, 0x550c7dc3, 0x72be5d74, 0x80deb1fe, 0x9bdc06a7, 0xc19bf174,
  0xe49b69c1, 0xefbe4786, 0x0fc19dc6, 0x240ca1cc, 0x2de92c6f, 0x4a7484aa, 0x5cb0a9dc, 0x76f988da,
  0x983e5152, 0xa831c66d, 0xb00327c8, 0xbf597fc7, 0xc6e00bf3, 0xd5a79147, 0x06ca6351, 0x14292967,
  0x27b70a85, 0x2e1b2138, 0x4d2c6dfc, 0x53380d13, 0x650a7354, 0x766a0abb, 0x81c2c92e, 0x92722c85,
  0xa2bfe8a1, 0xa81a664b, 0xc24b8b70, 0xc76c51a3, 0xd192e819, 0xd6990624, 0xf40e3585, 0x106aa070,
  0x19a4c116, 0x1e376c08, 0x2748774c, 0x34b0bcb5, 0x391c0cb3, 0x4ed8aa4a, 0x5b9cca4f, 0x682e6ff3,
  0x748f82ee, 0x78a5636f, 0x84c87814, 0x8cc70208, 0x90befffa, 0xa4506ceb, 0xbef9a3f7, 0xc67178f2]

/-- The eight words of state. -/
structure State where
  a : UInt32
  b : UInt32
  c : UInt32
  d : UInt32
  e : UInt32
  f : UInt32
  g : UInt32
  h : UInt32
deriving DecidableEq, Repr

/-- The state before the first block: fractional parts of square roots of primes. -/
def initial : State :=
  ⟨0x6a09e667, 0xbb67ae85, 0x3c6ef372, 0xa54ff53a, 0x510e527f, 0x9b05688c, 0x1f83d9ab, 0x5be0cd19⟩

/-- Turns a word to the right. -/
def rotate (x : UInt32) (n : UInt32) : UInt32 := (x >>> n) ||| (x <<< (32 - n))

/-- A message with a one bit, zeros, and its length in bits, up to full blocks. -/
def pad (message : List UInt8) : List UInt8 :=
  let zeros := (119 - message.length % 64) % 64
  message ++ 0x80 :: List.replicate zeros 0 ++ Cbor.bigEndian 8 (8 * message.length)

/-- Four bytes as a word. -/
def wordOf (bs : List UInt8) : UInt32 := bs.foldl (fun w b => w <<< 8 ||| b.toUInt32) 0

/-- The words of a list of bytes, at most `n` of them. -/
def words : (n : Nat) → List UInt8 → List UInt32
  | 0, _ => []
  | n + 1, bs => wordOf (bs.take 4) :: words n (bs.drop 4)

/-- Adds `n` words to a schedule, each from four words before it. -/
def extend : (n : Nat) → Array UInt32 → Array UInt32
  | 0, w => w
  | n + 1, w =>
    let back (k : Nat) : UInt32 := w.getD (w.size - k) 0
    let s₀ := rotate (back 15) 7 ^^^ rotate (back 15) 18 ^^^ (back 15 >>> 3)
    let s₁ := rotate (back 2) 17 ^^^ rotate (back 2) 19 ^^^ (back 2 >>> 10)
    extend n (w.push (back 16 + s₀ + back 7 + s₁))

/-- One round with a word of the schedule and a round word. -/
def round (s : State) (w k : UInt32) : State :=
  let s₁ := rotate s.e 6 ^^^ rotate s.e 11 ^^^ rotate s.e 25
  let choice := (s.e &&& s.f) ^^^ (~~~s.e &&& s.g)
  let t₁ := s.h + s₁ + choice + k + w
  let s₀ := rotate s.a 2 ^^^ rotate s.a 13 ^^^ rotate s.a 22
  let majority := (s.a &&& s.b) ^^^ (s.a &&& s.c) ^^^ (s.b &&& s.c)
  ⟨t₁ + (s₀ + majority), s.a, s.b, s.c, s.d + t₁, s.e, s.f, s.g⟩

/-- Mixes one block into the state. -/
def compress (s : State) (block : List UInt8) : State :=
  let schedule := extend 48 (words 16 block).toArray
  let t := (schedule.zip roundWords).foldl (fun t (w, k) => round t w k) s
  ⟨s.a + t.a, s.b + t.b, s.c + t.c, s.d + t.d, s.e + t.e, s.f + t.f, s.g + t.g, s.h + t.h⟩

/-- Mixes `n` blocks into the state. -/
def absorb : (n : Nat) → State → List UInt8 → State
  | 0, s, _ => s
  | n + 1, s, bs => absorb n (compress s (bs.take 64)) (bs.drop 64)

/-- The digest of a message, in hexadecimal. -/
def hex (message : List UInt8) : String :=
  let padded := pad message
  let s := absorb (padded.length / 64) initial padded
  String.ofList ([s.a, s.b, s.c, s.d, s.e, s.f, s.g, s.h].flatMap fun w => Decimal.hex 8 w.toNat)

end Contour.Digest
