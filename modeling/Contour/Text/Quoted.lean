import Contour.Text.Decimal
import Contour.Text.Printable
import Contour.Text.Utf8

/-!
# Quoted text

How a text is shown inside a message: between double quotes, with a backslash before quotes and
backslashes, letters for the common control characters, and hexadecimal codes for everything else
that is not printable.
-/

namespace Contour.Text

/-- The escape letter of a control character that has one. -/
def escapeLetter? (c : Char) : Option Char :=
  match c.toNat with
  | 7 => some 'a'
  | 8 => some 'b'
  | 9 => some 't'
  | 10 => some 'n'
  | 11 => some 'v'
  | 12 => some 'f'
  | 13 => some 'r'
  | _ => none

/-- One character of a quoted text. -/
def quotedChar (c : Char) : List Char :=
  if c == '"' || c == '\\' then ['\\', c]
  else match escapeLetter? c with
    | some letter => ['\\', letter]
    | none =>
      let n := c.toNat
      if isPrintable c then [c]
      else if n < 0x80 then '\\' :: 'x' :: Decimal.hex 2 n
      else if n < 0x10000 then '\\' :: 'u' :: Decimal.hex 4 n
      else '\\' :: 'U' :: Decimal.hex 8 n

/-- A text between double quotes. -/
def quoted (s : String) : String :=
  String.ofList ('"' :: s.toList.flatMap quotedChar ++ ['"'])

/-- The characters of quoted bytes; a byte outside every character is shown by its number. -/
def quotedFor : (fuel : Nat) → List UInt8 → List Char
  | 0, _ => []
  | _, [] => []
  | fuel + 1, b :: rest =>
    match Utf8.char? (b :: rest) with
    | some (c, rest) => quotedChar c ++ quotedFor fuel rest
    | none => '\\' :: 'x' :: Decimal.hex 2 b.toNat ++ quotedFor fuel rest

/-- Bytes between double quotes. -/
def quotedBytes (bs : List UInt8) : String :=
  String.ofList ('"' :: quotedFor bs.length bs ++ ['"'])

end Contour.Text
