/-!
# Words

Whole numbers that fit a word of 64 bits with a sign.
-/

namespace Contour.Word

/-- The word of a whole number, if it fits one. -/
def ofInt? (n : Int) : Option Int64 :=
  if -9223372036854775808 ≤ n ∧ n ≤ 9223372036854775807 then some (Int64.ofInt n) else none

/-- The number of a word fits, and has that word. -/
theorem ofInt?_toInt (w : Int64) : ofInt? w.toInt = some w := by
  have hlow := w.le_toInt
  have hhigh := w.toInt_lt
  rw [ofInt?, if_pos (by omega), Int64.ofInt_toInt]

end Contour.Word
