import Contour.Instruction
import Contour.Text.Blank
import Contour.Text.Lines

/-!
# Assembly text

A line of assembly holds a mnemonic of lower case letters, blanks, and an optional whole number.
What follows a comment marker is ignored, and so is every line of another form. `Assembly.ofLine?`
reads one line, `Assembly.parse` a whole text.
-/

namespace Contour.Assembly

/-- Whether a comment starts here: one of `;`, `#`, `%`, `!`, or two slashes. -/
def startsComment : List Char → Bool
  | ';' :: _ => true
  | '#' :: _ => true
  | '%' :: _ => true
  | '!' :: _ => true
  | '/' :: '/' :: _ => true
  | _ => false

/-- The part of a line before its first comment. -/
def beforeComment : List Char → List Char
  | [] => []
  | c :: rest => if startsComment (c :: rest) then [] else c :: beforeComment rest

/-- The code of a line: no comment, and no blanks at either end. -/
def codeOf (line : List Char) : List Char := Text.trim (beforeComment line)

/-- The letters of a mnemonic. -/
def isMnemonicChar (c : Char) : Bool := 'a' ≤ c && c ≤ 'z'

/-- The blanks allowed between mnemonic and argument. -/
def isGap (c : Char) : Bool :=
  c == '\t' || c == '\n' || c.toNat == 0x0c || c == '\r' || c == ' '

/-- Reads a mnemonic, a gap and an optional number that make up the whole text. -/
def instruction? (code : List Char) : Option Instruction :=
  let mnemonic := code.takeWhile isMnemonicChar
  if mnemonic.isEmpty then none
  else match (code.dropWhile isMnemonicChar).dropWhile isGap with
    | [] => some { mnemonic := String.ofList mnemonic }
    | number => (Decimal.int? number).map fun n =>
        { mnemonic := String.ofList mnemonic, argument := some n }

/-- The instruction on a line, if the line has the form of one. -/
def ofLine? (line : List Char) : Option Instruction := instruction? (codeOf line)

/-- The instructions on a list of lines, the first of which has the number `n`. -/
def ofLinesFrom : (n : Nat) → List (List Char) → List Instruction
  | _, [] => []
  | n, line :: rest =>
    match ofLine? line with
    | some i => { i with line := n } :: ofLinesFrom (n + 1) rest
    | none => ofLinesFrom (n + 1) rest

/-- The instructions on a list of lines, numbered from one. -/
def ofLines (ls : List (List Char)) : List Instruction := ofLinesFrom 1 ls

/-- The instructions of an assembly text. -/
def parse (text : List Char) : List Instruction := ofLines (Text.lines text)

/-- Instructions as assembly, one on a line. -/
def render (is : List Instruction) : String :=
  String.join (is.map fun i => i.text ++ "\n")

end Contour.Assembly
