import Contour.Files.Host
import Contour.Shelf
import Contour.Shelf.Location

/-!
# Shelves in files

A shelf is kept in a file: a mark, and then the rows, each as five fields with their lengths before
them. `toBytes` writes the file and `ofBytes?` reads it; an empty file holds an empty shelf.
`openAt` makes the directories and the file where they are missing, unless the location does not
allow it.
-/

namespace Contour.Shelf

open Files

/-! ## The file -/

/-- How the file of a shelf starts. -/
def fileMark : List UInt8 := Utf8.encode "program shelf 1\n".toList

/-- The byte after a count. -/
def countEnd : UInt8 := 58

/-- Bytes after their number in decimal. -/
def counted (bs : List UInt8) : List UInt8 :=
  Utf8.encode (Decimal.nat bs.length) ++ countEnd :: bs

/-- What is written of a row. -/
def Row.fields (r : Row) : List (List UInt8) :=
  [Utf8.encode r.name.toList, Utf8.encode r.id.toList, Utf8.encode r.hash.toList, r.bytes,
    Utf8.encode (Decimal.int r.created)]

/-- A row as bytes. -/
def rowBytes (r : Row) : List UInt8 := (Row.fields r).flatMap counted

/-- The file of rows. -/
def toBytes (rows : List Row) : List UInt8 := fileMark ++ rows.flatMap rowBytes

/-- Reads bytes after their number. -/
def counted? (bs : List UInt8) : Option (List UInt8 × List UInt8) := do
  let count ← Decimal.nat? (Utf8.decode (bs.takeWhile (· != countEnd)))
  Cbor.take? count ((bs.dropWhile (· != countEnd)).drop 1)

/-- Reads `n` fields. -/
def fields? : (n : Nat) → List UInt8 → Option (List (List UInt8) × List UInt8)
  | 0, bs => some ([], bs)
  | n + 1, bs => do
    let (field, rest) ← counted? bs
    let (fields, rest) ← fields? n rest
    return (field :: fields, rest)

/-- The row that fields write. -/
def Row.ofFields? : List (List UInt8) → Option Row
  | [name, id, hash, bytes, created] => do
    return ⟨Location.textOf name, Location.textOf id, Location.textOf hash, bytes,
      ← Decimal.int? (Utf8.decode created)⟩
  | _ => none

/-- Reads at most `fuel` rows that are all of the bytes. -/
def rowsFor : (fuel : Nat) → List UInt8 → Option (List Row)
  | _, [] => some []
  | 0, _ :: _ => none
  | fuel + 1, b :: bs => do
    let (fields, rest) ← fields? 5 (b :: bs)
    return (← Row.ofFields? fields) :: (← rowsFor fuel rest)

/-- The rows in a file; every row takes at least one byte. -/
def ofBytes? (bs : List UInt8) : Option (List Row) :=
  if bs.isEmpty then some []
  else if bs.take fileMark.length = fileMark then rowsFor bs.length (bs.drop fileMark.length)
  else none

/-! ## Opening and saving -/

/-- Why a shelf cannot be opened. -/
inductive OpenError where
  /-- The directory of the file cannot be made. -/
  | directory (failure : Failure)
  /-- The path names no location. -/
  | location (error : Location.Error)
  /-- The file cannot be opened. -/
  | unreachable
  /-- The file cannot be read. -/
  | unreadable
  /-- The file holds something else. -/
  | foreign
  /-- There is no shelf yet, and none can be made. -/
  | readOnly
deriving DecidableEq, Repr

/-- The wording of an error. -/
def OpenError.message : OpenError → String
  | directory failure => "creating store directory: " ++ failure.message
  | location error => "setting busy timeout: " ++ error.message
  | unreachable => "setting busy timeout: unable to open database file: out of memory (14)"
  | unreadable => "setting busy timeout: disk I/O error: out of memory (10)"
  | foreign => "creating table: file is not a database (26)"
  | readOnly => "creating table: attempt to write a readonly database (8)"

variable {m : Type → Type} [Monad m]

/-- Writes a shelf to its location. -/
def save (host : Host m) (path : String) (s : Shelf) : m (Except Failure Unit) :=
  match Location.ofPath path with
  | .ok { file := some file, .. } => host.write file (toBytes s.rows)
  | _ => return .ok ()

/-- The bytes of the file of a location, which is made if it is missing. -/
def reach (host : Host m) (l : Location) (file : String) : m (Except OpenError (List UInt8)) := do
  match ← host.read file with
  | .ok bytes => return .ok bytes
  | .error ⟨_, _, .missing⟩ =>
    if !l.creates then return .error .unreachable
    else return (← host.write file []).map (fun () => []) |>.mapError fun _ => .unreachable
  | .error ⟨_, _, cause⟩ =>
    return .error (if cause = .isDirectory ∧ !l.creates ∧ !l.writes then .unreadable
      else .unreachable)

/-- The shelf in the bytes of a file. -/
def shelfIn (l : Location) (bytes : List UInt8) : Except OpenError Shelf :=
  match ofBytes? bytes with
  | none => .error .foreign
  | some rows =>
    if bytes.isEmpty ∧ !l.writes then .error .readOnly
    else .ok { rows, isReadOnly := !l.writes }

/-- Opens the shelf at a location, which was named by a path. -/
def openLocation (host : Host m) (path : String) (l : Location) : m (Except OpenError Shelf) := do
  let bytes ← match l.file with
    | none => pure (.ok [])
    | some file => reach host l file
  let shelf := do
    let bytes ← bytes
    (Location.checkPath path).mapError .location
    shelfIn l bytes
  match shelf, bytes with
  | .ok shelf, .ok [] =>
    let _ ← save host path shelf
    return .ok shelf
  | shelf, _ => return shelf

/-- Opens the shelf at a path and makes the directories on the way to it. -/
def openAt (host : Host m) (path : String) : m (Except OpenError Shelf) := do
  match ← host.makeDirectories (Path.directory path) with
  | .error failure => return .error (.directory failure)
  | .ok () =>
    match Location.ofPath path with
    | .error e => return .error (.location e)
    | .ok l => openLocation host path l

end Contour.Shelf
