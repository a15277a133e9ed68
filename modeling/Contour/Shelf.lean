import Contour.DeltaFile.Binary
import Contour.Digest
import Contour.Uuid

/-!
# The shelf of programs

Programs are kept under names on a shelf. A row of the shelf has the name, an identifier, the digest
and the bytes of the program, and the time when it was put there. Rows are in the order of their
names, and no two have the same name. While the shelf is closed nothing can be done with it, and its
rows stay; a shelf that is only for reading keeps its rows as well.
-/

namespace Contour

/-- What is stored under a name. -/
structure Row where
  name : String
  id : String
  hash : String
  bytes : List UInt8
  created : Int
deriving DecidableEq, Repr

/-- A program taken from the shelf. -/
structure Program where
  name : String
  id : Uuid
  hash : String
  deltas : List Delta
  created : Int
deriving DecidableEq, Repr

/-- The shelf: its rows in the order of their names, and what can be done with it. -/
structure Shelf where
  rows : List Row := []
  isOpen : Bool := true
  isReadOnly : Bool := false
deriving DecidableEq, Repr

namespace Shelf

/-- What was being done. -/
inductive Action where
  | saving (name : String)
  | querying (name : String)
  | listing
  | deleting (name : String)
deriving DecidableEq, Repr

/-- Why something cannot be done. -/
inductive Error where
  /-- There is no program of that name. -/
  | notFound (name : String)
  /-- A program needs a name. -/
  | emptyName
  /-- The shelf is closed. -/
  | closed (action : Action)
  /-- The shelf is only for reading. -/
  | readOnly (action : Action)
  /-- The identifier in a row cannot be read. -/
  | badId (name : String) (error : Uuid.Error)
  /-- The program in a row cannot be read. -/
  | badProgram (name : String) (error : DeltaFile.Binary.Error)
deriving DecidableEq, Repr

/-- The wording of an action. -/
def Action.message : Action → String
  | saving name => "saving program " ++ name
  | querying name => "querying program " ++ name
  | listing => "listing programs"
  | deleting name => "deleting program " ++ name

/-- The wording of an error. -/
def Error.message : Error → String
  | notFound name => name ++ ": program not found"
  | emptyName => "saving program: empty name"
  | closed action => action.message ++ ": sql: database is closed"
  | readOnly action => action.message ++ ": attempt to write a readonly database (8)"
  | badId name error => "program " ++ name ++ ": bad id: " ++ error.message
  | badProgram name error => "program " ++ name ++ ": " ++ error.message

/-- The digest of a program. -/
def hash (ds : List Delta) : String := Digest.hex (DeltaFile.Binary.encode ds)

/-- Puts a row in its place, instead of one of the same name. -/
def insertRow (r : Row) : List Row → List Row
  | [] => [r]
  | s :: rest =>
    if r.name < s.name then r :: s :: rest
    else if r.name = s.name then r :: rest
    else s :: insertRow r rest

/-- The row of a name. -/
def row? (s : Shelf) (name : String) : Option Row := s.rows.find? (·.name == name)

/-- The program in a row. -/
def Row.program (r : Row) : Except Error Program :=
  match Uuid.parse r.id with
  | .error e => .error (.badId r.name e)
  | .ok id =>
    match DeltaFile.Binary.decode r.bytes with
    | .error e => .error (.badProgram r.name e)
    | .ok deltas => .ok ⟨r.name, id, r.hash, deltas, r.created⟩

/-- Puts a program on the shelf under a name, with a fresh identifier and the time. -/
def put (s : Shelf) (id : Uuid) (created : Int) (name : String) (ds : List Delta) :
    Except Error (Program × Shelf) :=
  if name = "" then .error .emptyName
  else if !s.isOpen then .error (.closed (.saving name))
  else if s.isReadOnly then .error (.readOnly (.saving name))
  else
    let row : Row := ⟨name, id.text, hash ds, DeltaFile.Binary.encode ds, created⟩
    .ok (⟨name, id, hash ds, ds, created⟩, { s with rows := insertRow row s.rows })

/-- The program of a name. -/
def get (s : Shelf) (name : String) : Except Error Program :=
  if !s.isOpen then .error (.closed (.querying name))
  else match s.row? name with
    | none => .error (.notFound name)
    | some r => Row.program r

/-- All programs in the order of their names. -/
def list (s : Shelf) : Except Error (List Program) :=
  if !s.isOpen then .error (.closed .listing) else s.rows.mapM Row.program

/-- Takes the program of a name off the shelf. -/
def delete (s : Shelf) (name : String) : Except Error Shelf :=
  if !s.isOpen then .error (.closed (.deleting name))
  else if s.isReadOnly then .error (.readOnly (.deleting name))
  else match s.row? name with
    | none => .error (.notFound name)
    | some _ => .ok { s with rows := s.rows.filter (·.name != name) }

/-- Closes the shelf. -/
def close (s : Shelf) : Shelf := { s with isOpen := false }

/-- Opens the shelf again. -/
def reopen (s : Shelf) : Shelf := { s with isOpen := true }

end Shelf

end Contour
