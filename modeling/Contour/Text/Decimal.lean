/-!
# Decimal numbers

Writing natural and whole numbers in decimal, and reading them back. `digits` gives the digits of a
number with the most significant first, `value` is its inverse on digit lists, and `int?` reads an
optional sign and at least one digit; `hexInt?` does the same in hexadecimal.
-/

namespace Contour.Decimal

/-- The digits of `n`, most significant first, in front of `tail`. -/
def digitsOnto (n : Nat) (tail : List Nat) : List Nat :=
  if n < 10 then n :: tail else digitsOnto (n / 10) (n % 10 :: tail)
termination_by n

/-- The digits of `n`, most significant first; zero has one digit. -/
def digits (n : Nat) : List Nat := digitsOnto n []

/-- The number that a list of digits stands for, most significant first. -/
def value (ds : List Nat) : Nat := ds.foldl (fun acc d => acc * 10 + d) 0

/-- The character of a digit below ten. -/
def digitChar (d : Nat) : Char := Char.ofNat (48 + d)

/-- The digit that a character stands for, if it is one. -/
def digit? (c : Char) : Option Nat := if c.isDigit then some (c.toNat - 48) else none

/-- A natural number in decimal. -/
def nat (n : Nat) : List Char := (digits n).map digitChar

/-- A whole number in decimal, with a dash before a negative one. -/
def int (n : Int) : List Char := if n < 0 then '-' :: nat n.natAbs else nat n.natAbs

/-- A whole number in decimal, as a string. -/
def text (n : Int) : String := String.ofList (int n)

/-- Reads a non-empty run of digits that is the whole text. -/
def nat? (s : List Char) : Option Nat :=
  if s.isEmpty then none else (s.mapM digit?).map value

/-- Reads an optional sign and a non-empty run of digits that make up the whole text. -/
def int? : List Char → Option Int
  | '-' :: s => (nat? s).map fun n => -(n : Int)
  | '+' :: s => (nat? s).map fun n => (n : Int)
  | s => (nat? s).map fun n => (n : Int)

/-- Pads a text on the left with zeros to a width. -/
def zeroPadded (width : Nat) (s : List Char) : List Char :=
  List.replicate (width - s.length) '0' ++ s

/-- Pads a text on the right with spaces to a width. -/
def spacePadded (width : Nat) (s : List Char) : List Char :=
  s ++ List.replicate (width - s.length) ' '

/-- The characters of the sixteen hexadecimal digits. -/
def hexChar (d : Nat) : Char := if d < 10 then Char.ofNat (48 + d) else Char.ofNat (87 + d)

/-- The last `width` hexadecimal digits of a number, in lower case. -/
def hex : (width : Nat) → Nat → List Char
  | 0, _ => []
  | w + 1, n => hex w (n / 16) ++ [hexChar (n % 16)]

/-- The value of a hexadecimal digit in either case. -/
def hexDigit? (c : Char) : Option Nat :=
  if c.isDigit then some (c.toNat - 48)
  else if 'a' ≤ c && c ≤ 'f' then some (c.toNat - 87)
  else if 'A' ≤ c && c ≤ 'F' then some (c.toNat - 55)
  else none

/-- The number that a list of hexadecimal digits stands for, most significant first. -/
def hexValue (ds : List Nat) : Nat := ds.foldl (fun acc d => acc * 16 + d) 0

/-- Reads a non-empty run of hexadecimal digits that is the whole text. -/
def hexNat? (s : List Char) : Option Nat :=
  if s.isEmpty then none else (s.mapM hexDigit?).map hexValue

/-- Reads an optional sign and a non-empty run of hexadecimal digits that make up the whole text. -/
def hexInt? : List Char → Option Int
  | '-' :: s => (hexNat? s).map fun n => -(n : Int)
  | '+' :: s => (hexNat? s).map fun n => (n : Int)
  | s => (hexNat? s).map fun n => (n : Int)

end Contour.Decimal
