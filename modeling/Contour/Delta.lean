import Contour.Text.Decimal

/-!
# Deltas

A program is the contour of its text: for each pair of neighbouring lines, how the nesting depth and
the weight change from one to the next. `Delta` is one such change, `Delta.between` computes it from
two shapes, and `Delta.residue` is the part of a weight that selects an instruction.
-/

namespace Contour

/-- The nesting depth and the weight of one line. -/
structure Shape where
  depth : Int64
  weight : Int64
deriving DecidableEq, Repr, Inhabited

/-- The change of depth (`index`) and of weight between two lines. -/
structure Delta where
  index : Int64
  weight : Int64
deriving DecidableEq, Repr, Inhabited

namespace Delta

/-- The change from one shape to the next. -/
def between (a b : Shape) : Delta := ⟨b.depth - a.depth, b.weight - a.weight⟩

/-- The changes along a list of shapes; `n` shapes have `n - 1` of them. -/
def along : List Shape → List Delta
  | a :: b :: rest => between a b :: along (b :: rest)
  | _ => []

/-- The last decimal digit of a weight, with the sign of the weight. -/
def residue (w : Int64) : Int64 := w % 10

/-- The written form of a delta, a pair in parentheses. -/
def text (d : Delta) : String :=
  "(" ++ Decimal.text d.index.toInt ++ ", " ++ Decimal.text d.weight.toInt ++ ")"

end Delta

end Contour
