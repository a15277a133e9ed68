import Contour.Cbor
import Contour.Delta
import Contour.Word

/-!
# Binary delta files

A program file in binary holds a record of a version and a list of deltas: a map with the keys one
and two. `Binary.encode` writes the shortest form. `Binary.decode` is more generous: it takes any
map that holds these keys, as numbers or as texts, ignores others, lets a null stand for a zero,
fills short pairs with zeros, and looks through tags.
-/

namespace Contour.DeltaFile.Binary

open Cbor

/-- The version that is written and read. -/
def version : Int := 1

/-- The bytes of one delta. -/
def encodeDelta (d : Delta) : Bytes := head 4 2 ++ int d.index.toInt ++ int d.weight.toInt

/-- The bytes of a program. -/
def encode (ds : List Delta) : Bytes :=
  head 5 2 ++ int 1 ++ int version ++ int 2 ++ head 4 ds.length ++ ds.flatMap encodeDelta

/-- Why bytes are no program. -/
inductive Error where
  /-- They are not a record of the right form. -/
  | malformed
  /-- They are a record of another version. -/
  | version (n : Int)
deriving DecidableEq, Repr

/-- The wording of an error. -/
def Error.message : Error → String
  | malformed => "deltafile: unmarshal: malformed record"
  | version n => "deltafile: unsupported version " ++ Decimal.text n

/-! ## Reading a record -/

/-- The tag that only says that an item is in this format. -/
def selfDescription : Nat := 55799

/-- Whether the content of a tag has the type that the tag asks for. -/
def isTagContent (tag : Nat) (content : Item) : Bool :=
  match tag, content with
  | 0, .text .. => true
  | 1, .unsigned _ => true
  | 1, .negative _ => true
  | 1, .float => true
  | 2, .bytes _ => true
  | 3, .bytes _ => true
  | tag, _ => tag == selfDescription || 4 ≤ tag

/-- Whether an item stands for nothing. -/
def isNull : Item → Bool
  | .simple n => n == 22 || n == 23
  | _ => false

/-- The word that an item stands for. Null is zero, and other simple values are their numbers, but
truth values are none. -/
def word? : Item → Option Int64
  | .unsigned n => Word.ofInt? n
  | .negative n => Word.ofInt? (-1 - (n : Int))
  | .simple n =>
    if n = 22 ∨ n = 23 then some 0 else if n = 20 ∨ n = 21 then none else Word.ofInt? n
  | .tag t content =>
    if !isTagContent t content then none
    else match t, content with
      | 2, .bytes b => Word.ofInt? (ofBigEndian b)
      | 3, .bytes b => Word.ofInt? (-1 - (ofBigEndian b : Int))
      | _, content => word? content
  | _ => none

/-- The delta that an item stands for: the first two words of an array, zeros where they are
missing. -/
def delta? : Item → Option Delta
  | .array [] => some ⟨0, 0⟩
  | .array [i] => (word? i).map fun index => ⟨index, 0⟩
  | .array (i :: w :: _) => do return ⟨← word? i, ← word? w⟩
  | .simple n => if n = 22 ∨ n = 23 then some ⟨0, 0⟩ else none
  | .tag t content => if isTagContent t content then delta? content else none
  | _ => none

/-- The deltas that an item stands for. -/
def deltas? : Item → Option (List Delta)
  | .array items => items.mapM delta?
  | .simple n => if n = 22 ∨ n = 23 then some [] else none
  | .tag t content => if isTagContent t content then deltas? content else none
  | _ => none

/-- The number of the field that a key names, zero for a key of no field. A number above all words
is a key of no field, but one below all words is no key. -/
def field? : Item → Option Int
  | .unsigned n => some n
  | .negative n => (Word.ofInt? (-1 - (n : Int))).map Int64.toInt
  | .text content valid =>
    if !valid then none
    else if content = [49] then some 1
    else if content = [50] then some 2
    else some 0
  | _ => none

/-- The version and the deltas of a record, as far as they have been found. -/
structure Fields where
  version : Option Int64 := none
  deltas : Option (List Delta) := none

/-- Reads the keys and values of a record; the first of two equal keys counts. -/
def fields? : List Item → Fields → Option Fields
  | key :: value :: rest, found => do
    match ← field? key, found with
    | 1, ⟨none, ds⟩ => fields? rest ⟨some (← word? value), ds⟩
    | 2, ⟨v, none⟩ => fields? rest ⟨v, some (← deltas? value)⟩
    | _, _ => fields? rest found
  | _, found => some found

/-- The record that an item stands for. -/
def record? : Item → Option Fields
  | .map items => fields? items {}
  | .simple n => if n = 22 ∨ n = 23 then some {} else none
  | .tag t content => if isTagContent t content then record? content else none
  | _ => none

/-- The program that bytes write. -/
def decode (bs : Bytes) : Except Error (List Delta) :=
  match (decode? bs).bind record? with
  | none => .error .malformed
  | some fields =>
    let v := (fields.version.getD 0).toInt
    if v = version then .ok (fields.deltas.getD []) else .error (.version v)

end Contour.DeltaFile.Binary
