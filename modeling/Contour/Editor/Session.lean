import Contour.Editor.Analysis
import Contour.Trial

/-!
# Sessions with an editor

A session keeps the texts of the open documents and a runner for trial runs. `Session.respond`
answers one request, and may have news for the editor: the diagnostics of a document whose text has
changed. `Session.handle` answers one message; before the first message of a session and after the
last no other is answered.
-/

namespace Contour.Editor

/-- The budget of a trial run. -/
def trialBudget : Nat := 1000000

/-- The command that runs a document. -/
def trialCommand : String := "fython.run"

/-- The name of the server. -/
def serverName : String := "fython-lsp"

/-- A session: whether it has begun, the open documents, and the runner. -/
structure Session where
  isActive : Bool := false
  documents : List (String × String) := []
  runner : Runner := { budget := trialBudget }
deriving DecidableEq, Repr

/-- What a request is answered with. -/
inductive Reply where
  | nothing
  /-- What the server can do. -/
  | welcome
  | completions (ops : List Opcode)
  | hover (text : String)
  | trial (t : Trial)
deriving DecidableEq, Repr

/-- Why a request fails. -/
inductive Refusal where
  /-- The session has not begun or is over. -/
  | inactive
  | unknownCommand (name : String)
  | noDocument
  | notOpen (uri : String)
  | badFormat (message : String)
  /-- The document has no program. -/
  | badProgram (error : Source.Error)
deriving DecidableEq, Repr

/-- The wording of a refusal. -/
def Refusal.message : Refusal → String
  | inactive => "server not initialized"
  | unknownCommand name => "unknown command " ++ Text.quoted name
  | noDocument => trialCommand ++ ": missing document URI"
  | notOpen uri => trialCommand ++ ": document " ++ uri ++ " is not open"
  | badFormat message => message
  | badProgram error => error.message

/-- News for the editor: the diagnostics of a document. -/
structure News where
  uri : String
  diagnostics : List Diagnostic
deriving DecidableEq, Repr

/-- The program of a document. -/
def instructionsOf (uri text : String) : Except Source.Error (List Instruction) :=
  match Language.ofUri uri with
  | .source => (Source.deltas text.toList).map Stream.decode
  | .assembly => .ok (Assembly.parse text.toList)

namespace Session

/-- The text of a document. -/
def document? (s : Session) (uri : String) : Option String :=
  (s.documents.find? (·.1 == uri)).map (·.2)

/-- Forgets a document. -/
def forget (s : Session) (uri : String) : Session :=
  { s with documents := s.documents.filter (·.1 != uri) }

/-- Keeps the text of a document. -/
def keep (s : Session) (uri text : String) : Session :=
  { s with documents := (uri, text) :: (s.forget uri).documents }

/-- The news about a document with a new text. -/
def newsOf (uri text : String) : News := ⟨uri, diagnosticsOf uri text.toList⟩

/-- The reply to a question about completions. -/
def complete (s : Session) (uri : String) (p : Position) : Reply :=
  match Language.ofUri uri, s.document? uri with
  | .assembly, some text =>
    let start := wordBefore text.toList p
    if start = "" then .nothing
    else match completions start with
      | [] => .nothing
      | ops => .completions ops
  | _, _ => .nothing

/-- The reply to a question about a position. -/
def hover (s : Session) (uri : String) (p : Position) : Reply :=
  match (s.document? uri).bind fun text => hover? uri text.toList p with
  | some text => .hover text
  | none => .nothing

/-- The text in an argument of a command; anything else is an empty text. -/
def argumentText : Option Data → String
  | some (.text s) => s
  | _ => ""

/-- The format that the third argument of a command names. -/
def formatOf : Option Data → Except Refusal Format
  | none => .ok .char
  | some d => (Format.ofName (argumentText (some d))).mapError .badFormat

/-- The reply to a command. -/
def execute (s : Session) (command : String) (arguments : List Data) : Except Refusal Reply := do
  if command ≠ trialCommand then throw (.unknownCommand command)
  if arguments.isEmpty then throw .noDocument
  let uri := argumentText arguments[0]?
  let format ← formatOf arguments[2]?
  match s.document? uri with
  | none => throw (.notOpen uri)
  | some text =>
    let program ← (instructionsOf uri text).mapError .badProgram
    return .trial (s.runner.run format (argumentText arguments[1]?).toList program)

/-- The reply to a request, the session after it, and news for the editor. -/
structure Response where
  reply : Except Refusal Reply := .ok .nothing
  session : Session
  news : Option News := none

/-- Answers a request. -/
def respond (s : Session) : Request → Response
  | .start => { reply := .ok .welcome, session := { s with isActive := true } }
  | .started => { session := s }
  | .shutdown => { session := { s with isActive := false, runner := s.runner.stop } }
  | .setTrace => { session := s }
  | .opened uri text => { session := s.keep uri text, news := some (newsOf uri text) }
  | .changed uri (some text) => { session := s.keep uri text, news := some (newsOf uri text) }
  | .changed _ none => { session := s }
  | .closed uri => { session := s.forget uri, news := some ⟨uri, []⟩ }
  | .complete uri p => { reply := .ok (s.complete uri p), session := s }
  | .hover uri p => { reply := .ok (s.hover uri p), session := s }
  | .execute command arguments => { reply := s.execute command arguments, session := s }

/-- What a message is answered with. -/
inductive Answer where
  /-- The message is no request. -/
  | rejected (error : Request.Error)
  | refused (refusal : Refusal)
  /-- A reply, perhaps with news. -/
  | replied (reply : Reply) (news : Option News)
deriving DecidableEq, Repr

/-- Answers a message, given by its method and its parameters. -/
def handle (s : Session) (method : String) (parameters : Data) : Answer × Session :=
  if !s.isActive && method != "initialize" then (.refused .inactive, s)
  else
    match Request.ofMessage method parameters with
    | .error e => (.rejected e, s)
    | .ok request =>
      let r := s.respond request
      match r.reply with
      | .ok reply => (.replied reply r.news, r.session)
      | .error refusal => (.refused refusal, r.session)

end Session

end Contour.Editor
