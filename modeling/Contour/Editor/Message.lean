import Contour.Editor.Session

/-!
# Messages to an editor

The forms in which replies and news go to the editor: records with the names that the protocol gives
to their fields.
-/

namespace Contour.Editor

/-- A natural number. -/
def Data.nat (n : Nat) : Data := .int n

/-- A position. -/
def positionData (line character : Nat) : Data :=
  .record [("line", .nat line), ("character", .nat character)]

/-- The number of a severity. -/
def Severity.code : Severity → Nat
  | error => 1
  | warning => 2

/-- A diagnostic. -/
def Diagnostic.toData (d : Diagnostic) : Data :=
  let range : Data :=
    .record [("start", positionData d.line d.start), ("end", positionData d.line d.stop)]
  .record
    [("range", range), ("severity", .nat d.severity.code), ("source", .text serverName),
     ("message", .text d.message)]

/-- The method of news. -/
def News.method : String := "textDocument/publishDiagnostics"

/-- The parameters of news. -/
def News.toData (n : News) : Data :=
  .record [("uri", .text n.uri), ("diagnostics", .list (n.diagnostics.map Diagnostic.toData))]

/-- What came of a trial run: numbers as texts, and nothing for an empty stack. -/
def trialData (t : Trial) : Data :=
  let stack : Data :=
    if t.stack.isEmpty then .null else .list (t.stack.map fun v => .text (Decimal.text v))
  let error := match t.error with
    | some message => [("error", .text message)]
    | none => []
  .record ([("output", .text t.output), ("stack", stack), ("steps", .nat t.steps)] ++ error)

/-- The number of the kind of completions that are keywords. -/
def keywordKind : Nat := 14

/-- A completion. -/
def completionData (op : Opcode) : Data :=
  .record [("label", .text op.name), ("kind", .nat keywordKind), ("detail", .text (writtenForm op)),
    ("insertText", .text op.name)]

/-- What the server can do: it takes whole documents, completes, hovers and runs documents. -/
def welcomeData : Data :=
  .record
    [("capabilities", .record
      [("textDocumentSync", .record [("openClose", .bool true), ("change", .nat 1)]),
       ("completionProvider", .record []),
       ("hoverProvider", .bool true),
       ("executeCommandProvider", .record [("commands", .list [.text trialCommand])])]),
     ("serverInfo", .record [("name", .text serverName), ("version", .text "0.1.0")])]

/-- A reply. -/
def Reply.toData : Reply → Data
  | nothing => .null
  | welcome => welcomeData
  | completions ops => .list (ops.map completionData)
  | hover text =>
    .record [("contents", .record [("kind", .text "markdown"), ("value", .text text)])]
  | trial t => trialData t

end Contour.Editor
