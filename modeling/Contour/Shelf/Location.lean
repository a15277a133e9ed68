import Contour.Text.Case
import Contour.Text.Percent
import Contour.Text.Pieces
import Contour.Text.Quoted

/-!
# Where a shelf is kept

A shelf is kept in a file, or nowhere at all, and then it is gone when it is closed. The location is
named by a path, after which parameters can follow a question mark (`Location.ofPath`). With the
scheme `file:` the path has percent escapes, a fragment does not belong to it, and the parameters
`mode`, `cache`, `vfs` and `immutable` say how the file is used.
-/

namespace Contour.Shelf

/-- Where a shelf is kept, and what can be done with it there. -/
structure Location where
  /-- The file, or nothing if the shelf is kept nowhere. -/
  file : Option String
  /-- Whether a missing file is made. -/
  creates : Bool := true
  /-- Whether the shelf can be changed. -/
  writes : Bool := true
deriving DecidableEq, Repr

namespace Location

/-- Why a path names no location. -/
inductive Error where
  /-- Parameters are separated by a semicolon. -/
  | semicolon
  /-- A percent sign in a parameter starts no escape; there are at most three bytes. -/
  | escape (bytes : List UInt8)
  /-- More than one file system is asked for. -/
  | systems (names : List String)
  /-- The value of a setting is not known. -/
  | setting (name value : String)
  /-- The address or one of its parameters does not make sense. -/
  | senseless
  /-- A mode allows more than the modes before it. -/
  | denied
deriving DecidableEq, Repr

/-- The wording of an error. -/
def Error.message : Error → String
  | semicolon => "invalid semicolon separator in query"
  | escape bytes => "invalid URL escape " ++ Text.quotedBytes bytes
  | systems names =>
    "conflicting vfs query parameters: [" ++ String.intercalate " " names ++ "]"
  | setting name value => "unknown " ++ name ++ " " ++ Text.quoted value
  | senseless => "SQL logic error: out of memory (1)"
  | denied => "access permission denied: out of memory (3)"

/-- The text of bytes. -/
def textOf (bytes : List UInt8) : String := String.ofList (Utf8.decode bytes)

/-! ## Parameters -/

/-- Parameters: names with values, in their order. -/
abbrev Parameters := List (String × String)

/-- The value of the first parameter with a name, empty without one. -/
def Parameters.first (ps : Parameters) (name : String) : String :=
  ((ps.find? (·.1 == name)).map (·.2)).getD ""

/-- A part of a parameter without its escapes. -/
def part (s : List Char) : Except Error String :=
  match Text.queryDecoded s with
  | .ok bytes => .ok (textOf bytes)
  | .error rest => .error (.escape ((Utf8.encode rest).take 3))

/-- A parameter. -/
def parameter (s : List Char) : Except Error (String × String) := do
  let (name, value) := Text.cut '=' s
  return (← part name, ← part value)

/-- The parameters in a text, with ampersands between them. -/
def parameters (s : List Char) : Except Error Parameters :=
  if s.contains ';' then .error .semicolon
  else ((Text.pieces '&' s).filter (!·.isEmpty)).mapM parameter

/-- The file system that parameters ask for, if they do. -/
def system? (ps : Parameters) : Except Error (Option String) :=
  let names := (ps.filter (·.1 == "vfs")).map (·.2)
  match names.dropWhile (· == "") with
  | [] => .ok none
  | name :: more => if more.all (· == name) then .ok (some name) else .error (.systems names)

/-- Checks the settings of a connection, which nothing here depends on. -/
def checkSettings (ps : Parameters) : Except Error Unit :=
  let format := ps.first "_time_format"
  let lock := ps.first "_txlock"
  if format ≠ "" then
    if format = "sqlite" then .ok () else .error (.setting "_time_format" format)
  else if lock = "" ∨ ["deferred", "immediate", "exclusive"].contains lock.toLower then .ok ()
  else .error (.setting "_txlock" lock)

/-! ## Addresses -/

/-- How a file is to be used. -/
inductive Mode where
  | reading
  | writing
  /-- Writing, after making the file if it is missing. -/
  | creating
  /-- There is no file. -/
  | memory
deriving DecidableEq, Repr

/-- The mode with a name. -/
def Mode.ofName? : String → Option Mode
  | "ro" => some reading
  | "rw" => some writing
  | "rwc" => some creating
  | "memory" => some memory
  | _ => none

/-- What a mode allows: a later mode may ask for no more. -/
def Mode.rank : Mode → Nat
  | reading => 1
  | writing => 2
  | creating => 6
  | memory => 128

/-- Whether one mode may follow another. -/
def Mode.allows (m m' : Mode) : Bool := m' = .memory || m'.rank ≤ m.rank

/-- The file systems on which a shelf is kept in a file. -/
def fileSystems : List String := ["unix", "unix-none", "unix-dotfile", "unix-excl"]

/-- The file system on which a shelf is kept nowhere. -/
def memorySystem : String := "memdb"

/-- What an address says: its path, and how the file is used. -/
structure Address where
  path : String
  mode : Mode := .creating
  system : String := "unix"
  isImmutable : Bool := false
deriving DecidableEq, Repr

/-- A part of an address without its escapes; it ends at an escaped zero. -/
def addressPart (s : List Char) : String :=
  textOf ((Text.percentDecoded s).takeWhile (· != 0))

/-- The options of an address: names with values, without those that have no name. -/
def options (s : List Char) : Parameters :=
  ((Text.pieces '&' s).map fun piece =>
    let (name, value) := Text.cut '=' piece
    (addressPart name, addressPart value)).filter (·.1 != "")

/-- Whether the value of an option means yes. -/
def isYes (value : String) : Bool :=
  let number := value.toList.takeWhile Char.isDigit
  if number.isEmpty then ["on", "yes", "true"].contains value.toLower
  else (Decimal.nat? number).getD 0 % 256 != 0

/-- Applies an option to an address. -/
def applyOption (a : Address) : String × String → Except Error Address
  | ("vfs", value) => .ok { a with system := value }
  | ("cache", value) => if value = "shared" ∨ value = "private" then .ok a else .error .senseless
  | ("mode", value) =>
    match Mode.ofName? value with
    | none => .error .senseless
    | some mode => if a.mode.allows mode then .ok { a with mode } else .error .denied
  | _ => .ok a

/-- The part of an address after its authority, which has to be this machine. -/
def withoutAuthority : List Char → Except Error (List Char)
  | '/' :: '/' :: rest =>
    let authority := rest.takeWhile (· != '/')
    if authority = [] ∨ authority = "localhost".toList then .ok (rest.drop authority.length)
    else .error .senseless
  | s => .ok s

/-- The address in a text after its scheme. -/
def address (s : List Char) : Except Error Address := do
  let s ← withoutAuthority s
  let (path, query) := Text.cut '?' (Text.cut '#' s).1
  let options := options query
  let start : Address :=
    { path := addressPart path, isImmutable := isYes (options.first "immutable") }
  options.foldlM applyOption start

/-- The location of an address. -/
def ofAddress (a : Address) : Except Error Location :=
  let isKnown := fileSystems.contains a.system || a.system == memorySystem
  let isFile := a.path != "" && a.path != ":memory:" && a.mode != .memory &&
    a.system != memorySystem
  if !isKnown then .error .senseless
  else .ok
    { file := if isFile then some a.path else none
      creates := a.mode == .creating || a.mode == .memory
      writes := a.mode != .reading && !(isFile && a.isImmutable) }

/-! ## Paths -/

/-- The text after the scheme of an address, if there is one. -/
def afterScheme? : List Char → Option (List Char)
  | 'f' :: 'i' :: 'l' :: 'e' :: ':' :: rest => some rest
  | _ => none

/-- The path of a shelf without its parameters, and these; a question mark in front is part of the
path. -/
def splitPath (s : List Char) : List Char × List Char :=
  if s.head? = some '?' then (s, []) else Text.cut '?' s

/-- A text up to a zero. -/
def untilZero (s : List Char) : List Char := s.takeWhile (·.toNat != 0)

/-- The location that a path names. -/
def ofPath (path : String) : Except Error Location := do
  let s := path.toList
  let (bare, query) := splitPath s
  let ps ← parameters query
  let system ← system? ps
  match afterScheme? s with
  | some rest => ofAddress (← address (untilZero rest))
  | none => ofAddress { path := String.ofList (untilZero bare), system := system.getD "unix" }

/-- Checks the settings in the parameters of a path that names a location. -/
def checkPath (path : String) : Except Error Unit := do
  checkSettings (← parameters (splitPath path.toList).2)

end Location

end Contour.Shelf
