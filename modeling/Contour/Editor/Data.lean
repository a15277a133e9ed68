import Contour.Text.Case

/-!
# Data

The data in the messages of an editor: nothing, truth values, numbers, texts, lists and records. The
names of the fields of a record match in either case, so that more than one field can be under a
name; `Data.amend` lets them change a value one after the other.
-/

namespace Contour.Editor

/-- A piece of data. -/
inductive Data where
  | null
  | bool (b : Bool)
  | int (n : Int)
  /-- A number that is not written as a whole one. -/
  | fraction
  | text (s : String)
  | list (items : List Data)
  | record (fields : List (String × Data))
deriving Repr, Inhabited

namespace Data

/-- Whether there is nothing. -/
def isNull : Data → Bool
  | null => true
  | _ => false

/-- The fields of a record; other data have none. -/
def fields : Data → List (String × Data)
  | record fields => fields
  | _ => []

/-- The items of a list; other data have none. -/
def items : Data → List Data
  | list items => items
  | _ => []

/-- The size from which on a number is too large to be held with double precision: halfway between
the largest number with 53 bits of precision and the next power of two. -/
def sizeLimit : Nat := (Nat.pow 2 54 - 1) * Nat.pow 2 970

mutual

/-- Whether every number in data can be held. -/
def isHeld : Data → Bool
  | int n => n.natAbs < sizeLimit
  | list items => areHeld items
  | record fields => fieldsHeld fields
  | _ => true

/-- Whether every number in items can be held. -/
def areHeld : List Data → Bool
  | [] => true
  | d :: rest => d.isHeld && areHeld rest

/-- Whether every number in fields can be held. -/
def fieldsHeld : List (String × Data) → Bool
  | [] => true
  | (_, d) :: rest => d.isHeld && fieldsHeld rest

end

/-- What stands in the fields under a name, in turn. -/
def under (d : Data) (name : String) : List Data :=
  (d.fields.filter fun f => Text.sameFolded f.1 name).map (·.2)

/-- What the fields under a name make of a value, one after the other. -/
def amend {α : Type} (d : Data) (name : String) (change : α → Data → α) (a : α) : α :=
  (d.under name).foldl change a

/-- A text in the place of another; other data leave it. -/
def amendText (old : String) : Data → String
  | text s => s
  | _ => old

/-- A number in the place of another; other data leave it. -/
def amendNat (old : Nat) : Data → Nat
  | int n => n.toNat
  | _ => old

end Data

end Contour.Editor
