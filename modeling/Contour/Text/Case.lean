/-!
# Letters in either case

`folded` brings the spellings of a text in upper and lower case together, so that an ASCII text is
found in whatever case it is written. Two letters outside ASCII have an ASCII letter as their lower
case: the long s and the sign for kelvin.
-/

namespace Contour.Text

/-- The letter that stands for a letter in either case. -/
def foldedChar (c : Char) : Char :=
  if c.toNat = 0x17f then 's' else if c.toNat = 0x212a then 'k' else c.toLower

/-- A text without its distinction of case. -/
def folded (s : String) : String := String.ofList (s.toList.map foldedChar)

/-- Whether two texts are the same but for their case. -/
def sameFolded (s t : String) : Bool := folded s == folded t

end Contour.Text
