/-!
# Blank characters

Which characters count as white space, and how they are cut from the ends of a text. A text is the
list of its characters. `isBlank` is the white space property of the Unicode standard, and `trim`
removes it on both sides.
-/

namespace Contour.Text

/-- White space in the sense of the Unicode standard. -/
def isBlank (c : Char) : Bool :=
  let n := c.toNat
  (0x09 ≤ n && n ≤ 0x0d) || n == 0x20 || n == 0x85 || n == 0xa0 || n == 0x1680 ||
    (0x2000 ≤ n && n ≤ 0x200a) || n == 0x2028 || n == 0x2029 || n == 0x202f || n == 0x205f ||
    n == 0x3000

/-- Drops characters satisfying `p` from the end of a text. -/
def dropEndWhile (p : Char → Bool) (s : List Char) : List Char :=
  (s.reverse.dropWhile p).reverse

/-- Removes blanks at the start. -/
def trimStart (s : List Char) : List Char := s.dropWhile isBlank

/-- Removes blanks at the end. -/
def trimEnd (s : List Char) : List Char := dropEndWhile isBlank s

/-- Removes blanks at both ends. -/
def trim (s : List Char) : List Char := trimEnd (trimStart s)

end Contour.Text
