import Contour.Text.Decimal
import Contour.Text.Utf8

/-!
# Percent escapes

In addresses a percent sign and two hexadecimal digits stand for a byte. `percentDecoded` takes a
percent sign for itself where no digits follow, and `queryDecoded` refuses it there; in the
parameters that `queryDecoded` reads a plus sign stands for a space.
-/

namespace Contour.Text

/-- The byte of two hexadecimal digits. -/
def hexByte? (a b : Char) : Option UInt8 :=
  match Decimal.hexDigit? a, Decimal.hexDigit? b with
  | some high, some low => some (UInt8.ofNat (high * 16 + low))
  | _, _ => none

/-- The bytes of a text with escapes. -/
def percentDecoded : List Char → List UInt8
  | [] => []
  | '%' :: a :: b :: rest =>
    match hexByte? a b with
    | some byte => byte :: percentDecoded rest
    | none => Utf8.encodeChar '%' ++ percentDecoded (a :: b :: rest)
  | c :: rest => Utf8.encodeChar c ++ percentDecoded rest

/-- The bytes of a parameter with escapes, or the text from a percent sign on that starts none. -/
def queryDecoded : List Char → Except (List Char) (List UInt8)
  | [] => .ok []
  | '%' :: a :: b :: rest =>
    match hexByte? a b with
    | some byte => (queryDecoded rest).map (byte :: ·)
    | none => .error ('%' :: a :: b :: rest)
  | c :: rest =>
    if c = '%' then .error (c :: rest)
    else (queryDecoded rest).map (Utf8.encodeChar (if c = '+' then ' ' else c) ++ ·)

end Contour.Text
