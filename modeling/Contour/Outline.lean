import Contour.Delta
import Contour.Text.Blank
import Contour.Text.Lines

/-!
# Outlines

The outline of a text is the list of its significant lines, those that are neither blank nor all
comment, each with its indentation, its nesting depth and its weight. The weight of a line is the
number of blanks in its code. A line may be indented deeper than the one before only if that one
ends in a colon, and then it must be; a line that is indented less returns to the indentation of an
enclosing block.
-/

namespace Contour.Outline

/-! ## The code of a line -/

/-- The single quote. -/
def apostrophe : Char := Char.ofNat 39

/-- The part of a line before its comment, where `quote` is the quote of the string literal that is
open and `escaped` says that a backslash protects the next character. There is none if a literal
stays open. -/
def beforeComment : (quote : Option Char) → (escaped : Bool) → List Char → Option (List Char)
  | none, _, [] => some []
  | some _, _, [] => none
  | some q, true, c :: rest => (beforeComment (some q) false rest).map (c :: ·)
  | some q, false, c :: rest =>
    if c = '\\' then (beforeComment (some q) true rest).map (c :: ·)
    else if c = q then (beforeComment none false rest).map (c :: ·)
    else (beforeComment (some q) false rest).map (c :: ·)
  | none, _, c :: rest =>
    if c = '#' then some []
    else if c = apostrophe ∨ c = '"' then (beforeComment (some c) false rest).map (c :: ·)
    else (beforeComment none false rest).map (c :: ·)

/-- A line without its comment, if every string literal on it is closed. -/
def withoutComment? (line : List Char) : Option (List Char) := beforeComment none false line

/-- The number of blanks in the code of a line. -/
def weight (code : List Char) : Nat := code.countP Text.isBlank

/-- The weight of a line as it is written. -/
def weight? (line : List Char) : Option Nat := (withoutComment? line).map (weight ∘ Text.trim)

/-- The column that a tab leads to. -/
def tabStop (column : Nat) : Nat := column + (8 - column % 8)

/-- Splits a line into the width of its indentation, counted from `column`, and the rest. A form
feed starts the count again. -/
def indentAndCode (column : Nat) : List Char → Nat × List Char
  | [] => (column, [])
  | c :: rest =>
    if c = ' ' then indentAndCode (column + 1) rest
    else if c = '\t' then indentAndCode (tabStop column) rest
    else if c.toNat = 0x0c then indentAndCode 0 rest
    else (column, c :: rest)

/-! ## Significant lines -/

/-- A significant line. -/
structure Line where
  /-- The line number, counted from one. -/
  number : Nat
  /-- The width of the indentation. -/
  indent : Nat
  /-- The number of enclosing blocks. -/
  depth : Nat
  /-- The number of blanks in the code. -/
  weight : Nat
  /-- The line without indentation, comment and blanks at the end. -/
  code : List Char
deriving DecidableEq, Repr

/-- The shape of a line. -/
def Line.shape (l : Line) : Shape := ⟨Int64.ofNat l.depth, Int64.ofNat l.weight⟩

/-- What can be wrong with the lines of a text. -/
inductive Flaw where
  | openString
  | unexpectedIndent
  | missingBlock
  | strayUnindent
deriving DecidableEq, Repr

/-- The wording of a flaw. -/
def Flaw.message : Flaw → String
  | openString => "unterminated string literal"
  | unexpectedIndent => "unexpected indent"
  | missingBlock => "expected an indented block"
  | strayUnindent => "unindent does not match any outer indentation level"

/-- A flaw and the number of the line that has it. -/
structure Error where
  line : Nat
  flaw : Flaw
deriving DecidableEq, Repr

/-- Whether a line opens a block. -/
def opensBlock (code : List Char) : Bool := code.getLast? == some ':'

/-- The widths of the open blocks after a line of width `indent`, innermost first. `levels` are
those before it, and `opens` says whether the line before opens a block. -/
def nest (levels : List Nat) (opens : Bool) (indent : Nat) : Except Flaw (List Nat) :=
  let top := levels.headD 0
  if top < indent then
    if opens then .ok (indent :: levels) else .error .unexpectedIndent
  else if opens then .error .missingBlock
  else
    let levels := levels.dropWhile (indent < ·)
    if levels.headD 0 = indent then .ok levels else .error .strayUnindent

/-- The significant lines among `raws`, the first of which has the number `number`. -/
def linesFrom (number : Nat) (levels : List Nat) (opens : Bool) :
    List (List Char) → Except Error (List Line × Bool)
  | [] => .ok ([], opens)
  | raw :: rest =>
    match withoutComment? raw with
    | none => .error ⟨number, .openString⟩
    | some code =>
      let (indent, body) := indentAndCode 0 (Text.trimEnd code)
      if body.isEmpty then linesFrom (number + 1) levels opens rest
      else match nest levels opens indent with
        | .error flaw => .error ⟨number, flaw⟩
        | .ok levels => do
          let (more, last) ← linesFrom (number + 1) levels (opensBlock body) rest
          return (⟨number, indent, levels.length - 1, weight body, body⟩ :: more, last)

/-- The significant lines of a text. The last of them may not open a block. -/
def scan (text : List Char) : Except Error (List Line) := do
  let (lines, opens) ← linesFrom 1 [0] false (Text.pieces '\n' (Text.unifyLineEnds text))
  match lines.getLast? with
  | some last => if opens then .error ⟨last.number, .missingBlock⟩ else .ok lines
  | none => .ok []

end Contour.Outline
