import Contour.Text.Quoted
import Contour.Text.Utf8

/-!
# Identifiers

Universally unique identifiers: sixteen bytes, written as five groups of hexadecimal digits. Reading
also takes the form with `urn:uuid:` in front, the form between any two characters, and the plain
digits.
-/

namespace Contour

/-- An identifier: its hexadecimal digits as numbers below sixteen. -/
structure Uuid where
  digits : List Nat
deriving DecidableEq, Repr, Inhabited

namespace Uuid

/-- The written form. -/
def text (u : Uuid) : String :=
  let group (start size : Nat) : List Char := ((u.digits.drop start).take size).map Decimal.hexChar
  String.ofList (group 0 8 ++ '-' :: group 8 4 ++ '-' :: group 12 4 ++ '-' :: group 16 4 ++
    '-' :: group 20 12)

/-- The identifier with a number. -/
def ofNat (n : Nat) : Uuid := ⟨((Decimal.hex 32 n).filterMap Decimal.hexDigit?)⟩

/-- Why a text is no identifier. -/
inductive Error where
  | length (bytes : Nat)
  | urn (start : List UInt8)
  | format
deriving DecidableEq, Repr

/-- The wording of an error. -/
def Error.message : Error → String
  | length bytes => "invalid UUID length: " ++ Decimal.text bytes
  | urn start => "invalid urn prefix: " ++ Text.quotedBytes start
  | format => "invalid UUID format"

/-- Hexadecimal digits as numbers. -/
def hexDigits? (bs : List UInt8) : Option (List Nat) :=
  bs.mapM fun b => Decimal.hexDigit? (Char.ofNat b.toNat)

/-- Reads five groups with dashes between them; what follows them is not looked at. -/
def grouped (bs : List UInt8) : Except Error Uuid :=
  let dash (n : Nat) : Bool := bs[n]? == some 45
  let group (start size : Nat) : List UInt8 := (bs.drop start).take size
  if dash 8 && dash 13 && dash 18 && dash 23 then
    match hexDigits? (group 0 8 ++ group 9 4 ++ group 14 4 ++ group 19 4 ++ group 24 12) with
    | some ds => .ok ⟨ds⟩
    | none => .error .format
  else .error .format

/-- The bytes of the mark of the long form. -/
def urnMark : List UInt8 := Utf8.encode "urn:uuid:".toList

/-- A byte in lower case. -/
def lowerByte (b : UInt8) : UInt8 := if 65 ≤ b && b ≤ 90 then b + 32 else b

/-- Reads an identifier. -/
def parse (s : String) : Except Error Uuid :=
  let bs := Utf8.encode s.toList
  if bs.length = 36 then grouped bs
  else if bs.length = 45 then
    if (bs.take 9).map lowerByte = urnMark then grouped (bs.drop 9) else .error (.urn (bs.take 9))
  else if bs.length = 38 then grouped (bs.drop 1)
  else if bs.length = 32 then
    match hexDigits? bs with
    | some ds => .ok ⟨ds⟩
    | none => .error .format
  else .error (.length bs.length)

end Uuid

end Contour
