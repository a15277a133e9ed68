import Contour.Delta

/-!
# Numbers as runs of deltas

A number is written as a run of deltas of index zero, one decimal digit each, the most significant
first. `Numeral.encode` writes the shortest such run; a negative number starts with an extra zero
digit, and a lone zero digit is the number zero. `Numeral.read` reads the longest run at the start
of a stream; it takes every weight by its last digit, so that a negative weight `-d` stands for the
digit `10 - d`.
-/

namespace Contour.Numeral

/-- The delta of one digit. -/
def digitDelta (d : Nat) : Delta := ⟨0, Int64.ofNat d⟩

/-- The run of deltas that writes a number. -/
def encode (n : Int) : List Delta :=
  if n = 0 then [digitDelta 0]
  else
    let run := (Decimal.digits n.natAbs).map digitDelta
    if n < 0 then digitDelta 0 :: run else run

/-- The decimal digit that a weight stands for. -/
def digit (w : Int64) : Nat :=
  let r := (Delta.residue w).toInt
  (if r < 0 then 10 + r else r).toNat

/-- The longest run of deltas of index zero at the start of a stream. -/
def run (ds : List Delta) : List Delta := ds.takeWhile (·.index == 0)

/-- The number that a run stands for. A first weight of exactly zero is a sign, unless the run is
that one digit. -/
def valueOf (r : List Delta) : Int :=
  let magnitude : Int := (Decimal.value (r.map fun d => digit d.weight) : Nat)
  match r with
  | d :: _ :: _ => if d.weight == 0 then -magnitude else magnitude
  | _ => magnitude

/-- What reading a number yields: its value, how many deltas it took, and whether there was a
run. -/
structure Reading where
  value : Int
  consumed : Nat
  found : Bool
deriving DecidableEq, Repr

/-- Reads the number at the start of a stream; without a run the value is `default`. -/
def read (ds : List Delta) (default : Int) : Reading :=
  match run ds with
  | [] => ⟨default, 0, false⟩
  | r => ⟨valueOf r, r.length, true⟩

end Contour.Numeral
