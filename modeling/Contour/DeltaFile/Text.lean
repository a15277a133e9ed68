import Contour.Delta
import Contour.Text.Lines
import Contour.Text.Quoted
import Contour.Word

/-!
# Text delta files

A program file in text has a header and a line for each delta: the index, a tab, and the weight.
`Text.read` takes the first pair of numbers on each line, with anything between them that is neither
digit nor dash, and passes over lines that have none. It works on bytes, since neither digits nor
dashes occur inside the encoding of another character.
-/

namespace Contour.DeltaFile.Text

/-! ## Writing -/

/-- The first line of a file. -/
def header : List Char := "di\tdw\n".toList

/-- The line of one delta. -/
def line (d : Delta) : List Char :=
  Decimal.int d.index.toInt ++ '\t' :: Decimal.int d.weight.toInt ++ ['\n']

/-- A program as text. -/
def write (ds : List Delta) : List Char := header ++ ds.flatMap line

/-- How many characters are written at once. -/
def blockSize : Nat := 4096

/-- A program as text, written block by block while `room` blocks can be written. -/
def writeWithin (room : Option Nat) (ds : List Delta) : Except String (List Char) :=
  let text := write ds
  let blocks := (text.length + (blockSize - 1)) / blockSize
  match room with
  | some n => if n < blocks then .error "deltafile: write: disk full" else .ok text
  | none => .ok text

/-! ## Reading -/

/-- Why a text is no program. -/
inductive Error where
  /-- A number on the line does not fit a word. -/
  | range (line : Nat) (digits : List Char)
  /-- A line is too long. -/
  | longLine
deriving DecidableEq, Repr

/-- The wording of an error. -/
def Error.message : Error → String
  | range line digits =>
    "deltafile: line " ++ Decimal.text line ++ ": strconv.Atoi: parsing " ++
      Contour.Text.quoted (String.ofList digits) ++ ": value out of range"
  | longLine => "deltafile: read: bufio.Scanner: token too long"

/-- Reads an optional dash and the longest run of digits after it. -/
def number? (s : List Char) : Option (List Char × List Char) :=
  let (sign, rest) := match s with
    | '-' :: rest => (['-'], rest)
    | _ => ([], s)
  let digits := rest.takeWhile Char.isDigit
  if digits.isEmpty then none else some (sign ++ digits, rest.dropWhile Char.isDigit)

/-- Whether a character may stand between two numbers. -/
def isSeparator (c : Char) : Bool := !c.isDigit && c != '-'

/-- Reads two numbers with separators between them. -/
def pairAt? (s : List Char) : Option (List Char × List Char) := do
  let (a, rest) ← number? s
  if (rest.takeWhile isSeparator).isEmpty then none
  else
    let (b, _) ← number? (rest.dropWhile isSeparator)
    return (a, b)

/-- The first pair of numbers; with `inRun`, the digits ahead end a run of digits in which no pair
starts. -/
def firstPair? : (inRun : Bool) → List Char → Option (List Char × List Char)
  | _, [] => none
  | inRun, c :: rest =>
    if inRun && c.isDigit then firstPair? true rest
    else match pairAt? (c :: rest) with
      | some pair => some pair
      | none => firstPair? c.isDigit rest

/-- The first pair of numbers on a line. -/
def pair? (line : List Char) : Option (List Char × List Char) := firstPair? false line

/-- The word that a number writes. -/
def word? (s : List Char) : Option Int64 := (Decimal.int? s).bind Word.ofInt?

/-- A line that is as long as this cannot be read. -/
def maxLine : Nat := 65536

/-- Reads lines, the first of which has the number `n`. -/
def readFrom : (n : Nat) → List (List Char) → Except Error (List Delta)
  | _, [] => .ok []
  | n, l :: rest =>
    if maxLine ≤ l.length then .error .longLine
    else match pair? l with
      | none => readFrom (n + 1) rest
      | some (a, b) =>
        match word? a, word? b with
        | none, _ => .error (.range n a)
        | _, none => .error (.range n b)
        | some index, some weight => (readFrom (n + 1) rest).map (⟨index, weight⟩ :: ·)

/-- Reads a program from bytes, each taken for a character of its own. -/
def read (bytes : List UInt8) : Except Error (List Delta) :=
  let text := bytes.map fun b => Char.ofNat b.toNat
  readFrom 1 (Contour.Text.pieces '\n' (Contour.Text.dropFinalLineFeed text))

end Contour.DeltaFile.Text
