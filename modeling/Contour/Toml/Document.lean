import Contour.Toml.Statement

/-!
# Configuration documents

A document is a tree of tables. Statements are carried out in turn (`Document.execute`): a header
makes its table the current one, and an assignment puts a value under a key of the current table.
Nothing can be defined twice, except that a table that was only implied by a longer key may still be
defined. A key that is noted as an array and then implied by a longer one starts again as an empty
table. A table on one line has to make sense by itself as well (`tableOf?`).
-/

namespace Contour.Toml

/-- A node of the tree. -/
inductive Node where
  /-- A value that is no table. -/
  | value (v : Value)
  | table (entries : List (String × Node))
  /-- An array of tables, given by the entries of its elements, the latest first. -/
  | tables (elements : List (List (String × Node)))
deriving Inhabited

/-- The entries of a table. -/
abbrev Entries := List (String × Node)

namespace Entries

/-- The node of a name. -/
def get? (es : Entries) (name : String) : Option Node := (es.find? (·.1 == name)).map (·.2)

/-- Puts a node under a name, in the place of the one there. -/
def put (es : Entries) (name : String) (n : Node) : Entries :=
  if es.any (·.1 == name) then es.map fun e => if e.1 == name then (name, n) else e
  else es ++ [(name, n)]

/-- Puts a node under a key; the parts of the key before the last lead through tables. -/
def plant (n : Node) : Key → Entries → Option Entries
  | [], es => some es
  | [name], es => some (es.put name n)
  | name :: rest, es =>
    match es.get? name with
    | none => (plant n rest []).map fun below => es.put name (.table below)
    | some (.table below) => (plant n rest below).map fun below => es.put name (.table below)
    | some _ => none

end Entries

mutual

/-- The node that a value makes by itself. -/
def nodeOf? : Value → Option Node
  | .inline entries => (tableOf? [] entries).map .table
  | v => some (.value v)

/-- The entries of a table on one line, after those that are done. -/
def tableOf? (done : Entries) : List (Key × Value) → Option Entries
  | [] => some done
  | (key, v) :: rest => do
    let n ← nodeOf? v
    tableOf? (← done.plant n key) rest

end

/-- A document under construction. -/
structure Document where
  root : Entries := []
  /-- Keys of tables that are only implied. -/
  implied : List Key := []
  /-- Keys with whether they hold an array, the latest information first. -/
  arrays : List (Key × Bool) := []

namespace Document

/-- Changes the entries of the table with a key; an array of tables stands for its latest
element. -/
def update (f : Entries → Option Entries) : Key → Entries → Option Entries
  | [], es => f es
  | name :: rest, es =>
    match Entries.get? es name with
    | some (.table inner) =>
      (update f rest inner).map fun inner => Entries.put es name (.table inner)
    | some (.tables (latest :: earlier)) =>
      (update f rest latest).map fun latest => Entries.put es name (.tables (latest :: earlier))
    | _ => none

/-- Whether a key holds an array. -/
def isArray (d : Document) (key : Key) : Bool :=
  ((d.arrays.find? (·.1 == key)).map (·.2)).getD false

/-- Notes whether a key holds an array. -/
def note (d : Document) (key : Key) (array : Bool) : Document :=
  { d with arrays := (key, array) :: d.arrays }

/-- The key under which it is noted whether a name holds an array. The empty name has none of its
own in a table with a name, and what it holds is noted for the table. -/
def noteKey (context : Key) (name : String) : Key :=
  if name = "" ∧ context ≠ [] then context else context ++ [name]

/-- Notes that a table is only implied. -/
def imply (d : Document) (key : Key) : Document :=
  if d.implied.contains key then d else { d with implied := key :: d.implied }

/-- Notes that a table is defined. -/
def define (d : Document) (key : Key) : Document :=
  { d with implied := d.implied.filter (· != key) }

/-- The node with a key below the table with the key `context`. -/
def lookup? (d : Document) (context : Key) (name : String) : Option Node :=
  follow context d.root
where
  /-- Follows the context. -/
  follow : Key → Entries → Option Node
    | [], es => Entries.get? es name
    | k :: rest, es =>
      match Entries.get? es k with
      | some (.table inner) => follow rest inner
      | some (.tables (latest :: _)) => follow rest latest
      | _ => none

/-- Puts a node under a name in the table with the key `context`. -/
def set (d : Document) (context : Key) (name : String) (n : Node) : Option Document := do
  let key := context ++ [name]
  let put (d : Document) : Option Document := do
    return { d with root := ← update (fun es => some (Entries.put es name n)) context d.root }
  -- the context has to consist of tables, whether or not anything is put there
  let _ ← update some context d.root
  match d.lookup? context name with
  | none => put d
  | some _ =>
    if !d.implied.contains key then none
    else if d.isArray key then put (d.define key)
    else some (d.define key)

/-- Makes sure that the tables on the way to a key are there. -/
def openParents : (seen : Key) → Key → Document → Option Document
  | _, [], d => some d
  | _, [_], d => some d
  | seen, name :: rest, d =>
    match d.lookup? seen name with
    | none => do
      let d := d.imply (seen ++ [name])
      let root ← update (fun es => some (Entries.put es name (.table []))) seen d.root
      openParents (seen ++ [name]) rest { d with root }
    | some (.value _) => none
    | some _ => openParents (seen ++ [name]) rest d

/-- Opens the table with a key, or a new element of the array of tables with that key. -/
def openTable (d : Document) (key : Key) (element : Bool) : Option Document := do
  let d ← openParents [] key d
  let name ← key.getLast?
  let context := key.dropLast
  if element then
    let add (es : Entries) : Option Entries :=
      match Entries.get? es name with
      | none => some (Entries.put es name (.tables [[]]))
      | some (.tables elements) => some (Entries.put es name (.tables ([] :: elements)))
      | some _ => none
    return { d with root := ← update add context d.root }
  else d.set context name (.table [])

/-- Opens the tables that the parts of a key before its last imply. -/
def openImplied : (context : Key) → Key → Document → Option (Key × Document)
  | context, [], d => some (context, d)
  | context, [_], d => some (context, d)
  | context, part :: rest, d => do
    let context := context ++ [part]
    let d ← (d.imply context).openTable context false
    openImplied context rest d

mutual

/-- Works a value off before it is put under `name`: tables in it define their keys. -/
def prepare (context : Key) (name : String) (inArray : Bool) : Value → Document → Option Document
  | .array items, d => prepareItems context name items (d.note (noteKey context name) true)
  | .inline entries, d => do
    let here := context ++ [name]
    let _ ← tableOf? [] entries
    let d ← (d.imply here).openTable here inArray
    prepareEntries here entries d
  | _, d => some d

/-- Works off the items of an array. -/
def prepareItems (context : Key) (name : String) : List Value → Document → Option Document
  | [], d => some d
  | v :: vs, d => do
    let d ← prepare context name true v d
    prepareItems context name vs d

/-- Works off the entries of a table on one line. -/
def prepareEntries (here : Key) : List (Key × Value) → Document → Option Document
  | [], d => some d
  | (key, v) :: es, d => do
    let name ← key.getLast?
    let (context, d) ← openImplied here key d
    let d ← prepare context name false v d
    let d ← d.set context name (← nodeOf? v)
    prepareEntries here es (d.note (noteKey context name) (isArrayValue v))
where
  /-- Whether a value is an array. -/
  isArrayValue : Value → Bool
    | .array _ => true
    | _ => false

end

/-- The tree of a document and the key of the current table. -/
structure Position where
  document : Document := {}
  current : Key := []

/-- Carries out a statement. -/
def execute (p : Position) : Statement → Option Position
  | .table key => do
    let d ← p.document.openTable key false
    return ⟨d.note key false, key⟩
  | .element key => do
    let d ← p.document.openTable key true
    return ⟨d.note key false, key⟩
  | .assignment key v => do
    let d ← prepareEntries p.current [(key, v)] p.document
    return { p with document := d }

/-- The tree of a configuration text. -/
def parse? (bytes : List UInt8) : Option Entries := do
  let statements ← statements? bytes
  let p ← statements.foldlM execute {}
  return p.document.root

end Document

end Contour.Toml
