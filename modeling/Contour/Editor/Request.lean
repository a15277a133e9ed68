import Contour.Editor.Capability

/-!
# Requests of an editor

The messages that an editor sends, each with the parameters that matter. `Request.ofMessage` reads a
message from its method and its parameters: these have to be of the form that belongs to the method
(`Method.form`), also where they do not matter, and then they can be read (`Method.request`).
-/

namespace Contour.Editor

/-- A position in a document: a line and a byte on it, both counted from zero. -/
structure Position where
  line : Nat := 0
  character : Nat := 0
deriving DecidableEq, Repr

/-- A message of an editor. -/
inductive Request where
  | start
  | started
  | shutdown
  | setTrace
  /-- A document was opened with a text. -/
  | opened (uri text : String)
  /-- A document has a new text, unless only parts of it were sent. -/
  | changed (uri : String) (text : Option String)
  | closed (uri : String)
  | complete (uri : String) (position : Position)
  | hover (uri : String) (position : Position)
  | execute (command : String) (arguments : List Data)
deriving Repr

/-- Why a message is no request. -/
inductive Request.Error where
  /-- There is no such method. -/
  | unknownMethod
  /-- The parameters are not of the right form. -/
  | badParameters
deriving DecidableEq, Repr

/-- The method of a message. -/
inductive Method where
  | start | started | shutdown | setTrace
  | opened | changed | closed
  | complete | hover | execute
deriving DecidableEq, Repr

namespace Method

/-- The method with a name. -/
def ofName? : String → Option Method
  | "initialize" => some start
  | "initialized" => some started
  | "shutdown" => some shutdown
  | "$/setTrace" => some setTrace
  | "textDocument/didOpen" => some opened
  | "textDocument/didChange" => some changed
  | "textDocument/didClose" => some closed
  | "textDocument/completion" => some complete
  | "textDocument/hover" => some hover
  | "workspace/executeCommand" => some execute
  | _ => none

/-! ## Forms -/

open Form in
/-- A position. -/
def positionForm : Form := record [("line", natural), ("character", natural)]

open Form in
/-- A change of a document. -/
def changeForm : Form :=
  record
    [("range", record [("start", positionForm), ("end", positionForm)]), ("rangeLength", natural),
     ("text", text)]

open Form in
/-- The fields of a question about a position in a document. -/
def questionFields : List (String × Form) :=
  [("textDocument", record [("uri", text)]), ("position", positionForm), ("workDoneToken", token)]

open Form in
/-- The parameters of the first message. -/
def startForm : Form :=
  record <| texts ["locale", "rootPath", "rootUri", "trace"] ++
    [("workDoneToken", token), ("processId", integer),
     ("clientInfo", record (texts ["name", "version"])), ("initializationOptions", held),
     ("capabilities", abilities), ("workspaceFolders", list (record (texts ["uri", "name"])))]

open Form in
/-- The form of the parameters of a method. -/
def form : Method → Form
  | start => startForm
  | started => record []
  | shutdown => any
  | setTrace => record [("value", text)]
  | opened => record
    [("textDocument", record <| texts ["uri", "languageId", "text"] ++ [("version", integer)])]
  | changed => record
    [("textDocument", record [("uri", text), ("version", integer)]),
     ("contentChanges", list changeForm)]
  | closed => record [("textDocument", record [("uri", text)])]
  | complete => record <| questionFields ++
    [("partialResultToken", token),
     ("context", record [("triggerKind", integer), ("triggerCharacter", text)])]
  | hover => record questionFields
  | execute => record [("command", text), ("arguments", list held), ("workDoneToken", token)]

/-! ## Reading -/

/-- A position in the place of another. -/
def amendPosition (old : Position) (d : Data) : Position :=
  ⟨d.amend "line" Data.amendNat old.line, d.amend "character" Data.amendNat old.character⟩

/-- The text in a field of the document that the parameters are about. -/
def documentText (d : Data) (name : String) : String :=
  d.amend "textDocument" (fun old document => document.amend name Data.amendText old) ""

/-- The new text that changes give: the one of the last change, unless that is about a range. -/
def newText? (d : Data) : Option String :=
  match (d.amend "contentChanges" (fun _ changes => changes.items) []).getLast? with
  | none => none
  | some change =>
    if change.amend "range" (fun _ range => !range.isNull) false then none
    else some (change.amend "text" Data.amendText "")

/-- The request that a method makes with its parameters. -/
def request (m : Method) (d : Data) : Request :=
  let uri := documentText d "uri"
  let position := d.amend "position" amendPosition {}
  match m with
  | start => .start
  | started => .started
  | shutdown => .shutdown
  | setTrace => .setTrace
  | opened => .opened uri (documentText d "text")
  | changed => .changed uri (newText? d)
  | closed => .closed uri
  | complete => .complete uri position
  | hover => .hover uri position
  | execute => .execute (d.amend "command" Data.amendText "")
    (d.amend "arguments" (fun _ arguments => arguments.items) [])

end Method

/-- The request that a message makes. -/
def Request.ofMessage (method : String) (parameters : Data) : Except Error Request :=
  match Method.ofName? method with
  | none => .error .unknownMethod
  | some m => if m.form.admits parameters then .ok (m.request parameters) else .error .badParameters

end Contour.Editor
