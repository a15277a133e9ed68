/-!
# Pieces of a text

Taking a text apart at a separating character: `pieces` at all of them, `cut` at the first.
-/

namespace Contour.Text

/-- The pieces of a text between separators. -/
def pieces (separator : Char) : List Char → List (List Char)
  | [] => [[]]
  | c :: rest =>
    if c = separator then [] :: pieces separator rest
    else match pieces separator rest with
      | [] => [[c]]
      | piece :: more => (c :: piece) :: more

/-- What stands before and after the first separator; without one nothing stands after it. -/
def cut (separator : Char) (s : List Char) : List Char × List Char :=
  (s.takeWhile (· != separator), (s.dropWhile (· != separator)).drop 1)

end Contour.Text
