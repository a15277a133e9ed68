import Contour.Text.Pieces

/-!
# Lines of a text

A line ends in a line feed, or in a carriage return and a line feed. `pieces '\n'` cuts at every
line feed, so that `n` of them give `n + 1` pieces; `lines` takes the line feed as the end of a line
and drops the empty piece after the last one.
-/

namespace Contour.Text

/-- Writes every carriage return followed by a line feed as a line feed alone. -/
def unifyLineEnds : List Char → List Char
  | [] => []
  | '\r' :: '\n' :: rest => '\n' :: unifyLineEnds rest
  | c :: rest => c :: unifyLineEnds rest

/-- Drops one line feed from the end of a text, if there is one. -/
def dropFinalLineFeed (s : List Char) : List Char :=
  if s.getLast? = some '\n' then s.dropLast else s

/-- The lines of a text, with either kind of line end; the empty text has none. -/
def lines (s : List Char) : List (List Char) :=
  match dropFinalLineFeed (unifyLineEnds s) with
  | [] => []
  | body => pieces '\n' body

end Contour.Text
