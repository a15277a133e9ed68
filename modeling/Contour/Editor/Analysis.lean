import Contour.Editor.Request
import Contour.Path
import Contour.Source
import Contour.Stream
import Contour.Text.Quoted
import Contour.Text.Utf8

/-!
# Analysis of documents

What is shown about a document in an editor. Program texts and assembly are told apart by the
extension of the address. `diagnosticsOf` finds what is wrong with a document, `completions` the
mnemonics that a word can become, and `hover?` says what a mnemonic or a line of a program text
does. Columns count bytes.
-/

namespace Contour.Editor

/-- The language of a document. -/
inductive Language where
  /-- A program text. -/
  | source
  | assembly
deriving DecidableEq, Repr

/-- The language of a document, by the extension of its address. -/
def Language.ofUri (uri : String) : Language :=
  let extension := Path.extension uri
  if Text.sameFolded extension ".fy" || Text.sameFolded extension ".py" then .source else .assembly

/-! ## Diagnostics -/

/-- How bad something is. -/
inductive Severity where
  | error
  | warning
deriving DecidableEq, Repr

/-- Something wrong with a part of a line; lines are counted from zero. -/
structure Diagnostic where
  line : Nat
  start : Nat
  stop : Nat
  severity : Severity
  message : String
deriving DecidableEq, Repr

/-- The number of bytes of a text. -/
def byteLength (s : List Char) : Nat := (Utf8.encode s).length

/-- The blanks that a diagnostic leaves out at the start of a line. -/
def isMargin (c : Char) : Bool := c == ' ' || c == '\t'

/-- A diagnostic about all of a line but its margins. -/
def Diagnostic.ofLine (n : Nat) (line : List Char) (severity : Severity) (message : String) :
    Diagnostic :=
  let start := byteLength line - byteLength (line.dropWhile isMargin)
  let stop := byteLength (Text.dropEndWhile (fun c => isMargin c || c == '\r') line)
  ⟨n, start, max start stop, severity, message⟩

/-- What is wrong with a line of assembly. -/
def lineFlaw? (line : List Char) : Option (Severity × String) :=
  if Assembly.codeOf line = [] then none
  else match Assembly.ofLine? line with
    | none => some (.warning, "not an instruction; the line is skipped")
    | some i =>
      match i.opcode?, i.argument with
      | none, _ => some (.error, "unknown instruction " ++ Text.quoted i.mnemonic)
      | some op, some n =>
        if op.takesArgument then none
        else some (.warning, op.name ++ " takes no argument; " ++ Decimal.text n ++ " is ignored")
      | some _, none => none

/-- The diagnostics of lines of assembly, the first of which has the number `n`. -/
def lineDiagnostics : (n : Nat) → List (List Char) → List Diagnostic
  | _, [] => []
  | n, line :: rest =>
    match lineFlaw? line with
    | none => lineDiagnostics (n + 1) rest
    | some (severity, message) =>
      Diagnostic.ofLine n line severity message :: lineDiagnostics (n + 1) rest

/-- The diagnostics of an assembly text. -/
def assemblyDiagnostics (text : List Char) : List Diagnostic := lineDiagnostics 0 (Text.lines text)

/-- The diagnostics of a program text. -/
def sourceDiagnostics (text : List Char) : List Diagnostic :=
  match Source.deltas text with
  | .ok _ => []
  | .error e =>
    let n := e.line - 1
    [Diagnostic.ofLine n (((Text.lines text)[n]?).getD []) .error e.cause.message]

/-- The diagnostics of a document. -/
def diagnosticsOf (uri : String) (text : List Char) : List Diagnostic :=
  match Language.ofUri uri with
  | .source => sourceDiagnostics text
  | .assembly => assemblyDiagnostics text

/-! ## Words -/

/-- The bytes of words: letters, digits and the underscore. -/
def isWordPart (b : UInt8) : Bool :=
  (97 ≤ b && b ≤ 122) || (65 ≤ b && b ≤ 90) || (48 ≤ b && b ≤ 57) || b == 95

/-- A text of ASCII bytes. -/
def ofBytes (bs : List UInt8) : String := String.ofList (bs.map fun b => Char.ofNat b.toNat)

/-- The bytes of the line at a position, before and after it; nothing below the last line. -/
def splitAt? (text : List Char) (p : Position) : Option (List UInt8 × List UInt8) :=
  ((Text.lines text)[p.line]?).map fun line =>
    let bytes := Utf8.encode line
    (bytes.take p.character, bytes.drop p.character)

/-- The part of the word at a position that stands before it. -/
def wordBefore (text : List Char) (p : Position) : String :=
  match splitAt? text p with
  | none => ""
  | some (before, _) => ofBytes (before.reverse.takeWhile isWordPart).reverse

/-- The word at a position. -/
def wordAt (text : List Char) (p : Position) : String :=
  match splitAt? text p with
  | none => ""
  | some (_, after) => wordBefore text p ++ ofBytes (after.takeWhile isWordPart)

/-! ## Completion and hovering -/

/-- An instruction as it is written, with a mark for its argument. -/
def writtenForm (op : Opcode) : String := if op.takesArgument then op.name ++ " [n]" else op.name

/-- The operations whose mnemonics start with a text in lower case. -/
def completions (start : String) : List Opcode :=
  let start := (start.toList.map Char.toLower)
  Opcode.all.filter fun op => start.isPrefixOf op.name.toList

/-- What is shown about an operation. -/
def hoverOpcode (op : Opcode) : String :=
  let argument :=
    if op.takesArgument then ", argument defaults to `" ++ Decimal.text op.defaultArgument ++ "`"
    else ""
  "**" ++ writtenForm op ++ "**\n\n" ++ "Opcode key `" ++ op.key.text ++ "`" ++ argument ++
    "\n\n---\n\n" ++ op.entry.doc ++ "\n"

/-- The place of the significant line with a number among all of them. -/
def significant? (lines : List Outline.Line) (number : Nat) : Option (Nat × Outline.Line) :=
  (lines.findIdx? (·.number == number)).bind fun i => (lines[i]?).map (i, ·)

/-- What is shown about a line of a program text: the delta that leads to it, and the instruction
that starts there. The first line has none. -/
def hoverLine? (text : List Char) (line : Nat) : Option String := do
  let lines ← (Source.scan text).toOption
  let ds := Delta.along (lines.map Outline.Line.shape)
  let (i, l) ← significant? lines (line + 1)
  if i = 0 then none
  else
    let d ← ds[i - 1]?
    let starts :=
      match (Stream.decode ds).find? (·.offset == i - 1) with
      | some instruction => " starts `" ++ instruction.text ++ "`"
      | none => ""
    return "depth " ++ Decimal.text l.depth ++ ", weight " ++ Decimal.text l.weight ++
      "\n\ndelta `" ++ d.text ++ "`" ++ starts

/-- What is shown at a position of a document. -/
def hover? (uri : String) (text : List Char) (p : Position) : Option String :=
  match Language.ofUri uri with
  | .source => hoverLine? text p.line
  | .assembly => (Opcode.ofName? (wordAt text p)).map hoverOpcode

end Contour.Editor
