/-!
# Sets of characters as ranges

A property of characters is stored as the ranges of code points that have it. `Ranges.contains`
looks a code point up.
-/

namespace Contour.Text

/-- Ranges of code points, both ends included, in increasing order. -/
abbrev Ranges := Array (Nat × Nat)

/-- Whether a code point lies in one of the ranges. -/
def Ranges.contains (rs : Ranges) (n : Nat) : Bool := rs.any fun r => r.1 ≤ n && n ≤ r.2

end Contour.Text
