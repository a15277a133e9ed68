import Contour.Outline
import Contour.Script.Form
import Contour.Text.Letter

/-!
# Lexemes

Cutting a program text into lexemes. A logical line may take several physical ones: inside brackets,
after a backslash at the end of a line, and inside a string literal in triple quotes. The lexemes of
a logical line are followed by `NEWLINE`, changes of indentation are `INDENT` and `DEDENT`, and
`ENDMARKER` ends the text. Where no lexeme can be read, the list ends in one that carries a remark.
-/

namespace Contour.Script

/-- A lexeme: the terminal symbol it is, and where the reading of it ended. -/
structure Lexeme where
  symbol : String
  /-- For a string literal, whether it is a byte string. -/
  isBytes : Bool := false
  /-- The line on which the lexeme ends. -/
  line : Nat
  /-- Whether reading it met the end of the text. -/
  atEnd : Bool := false
  /-- What is wrong here. -/
  remark : Option Remark := none
deriving DecidableEq, Repr

/-! ## Words and operators -/

/-- The reserved words. -/
def keywords : List String :=
  ["False", "None", "True", "and", "as", "assert", "break", "class", "continue", "def", "del",
    "elif", "else", "except", "finally", "for", "from", "global", "if", "import", "in", "is",
    "lambda", "nonlocal", "not", "or", "pass", "raise", "return", "try", "while", "with", "yield"]

/-- The operators, longer ones first. -/
def operators : List String :=
  ["**=", "...", "//=", "<<=", ">>=",
    "!=", "%=", "&=", "**", "*=", "+=", "-=", "->", "//", "/=", "<<", "<=", "<>", "==", ">=", ">>",
    "^=", "|=",
    "(", ")", "[", "]", ":", ",", ";", "+", "-", "*", "/", "|", "&", "<", ">", "=", ".", "%",
    "\x7b", "\x7d", "^", "~", "@"]

/-- Cuts a word off the front of a text. -/
def cut? : (word text : List Char) → Option (List Char)
  | [], text => some text
  | w :: ws, c :: cs => if w = c then cut? ws cs else none
  | _ :: _, [] => none

/-- Reads the longest operator at the start. -/
def operator? (s : List Char) : Option (String × List Char) :=
  operators.findSome? fun op => (cut? op.toList s).map (op, ·)

/-- Reads a name or a reserved word at the start. -/
def word? (s : List Char) : Option (String × List Char) :=
  match s with
  | c :: _ =>
    if Text.isNameStart c then
      let w := String.ofList (s.takeWhile Text.isNameChar)
      some (if keywords.contains w then w else "NAME", s.dropWhile Text.isNameChar)
    else none
  | [] => none

/-! ## Numbers -/

/-- Drops one character satisfying `p`. -/
def dropOne (p : Char → Bool) : List Char → List Char
  | c :: rest => if p c then rest else c :: rest
  | [] => []

/-- Reads one or more characters satisfying `p`. -/
def some? (p : Char → Bool) (s : List Char) : Option (List Char) :=
  let rest := s.dropWhile p
  if rest.length < s.length then some rest else none

/-- Reads a zero, one of two letters, and digits of a base. -/
def based? (lower upper : Char) (p : Char → Bool) : List Char → Option (List Char)
  | '0' :: c :: rest => if c = lower ∨ c = upper then some? p rest else none
  | _ => none

/-- Reads digits around a point, at least one in all. -/
def pointed? (s : List Char) : Option (List Char) :=
  match s.dropWhile Char.isDigit with
  | '.' :: rest =>
    (some? Char.isDigit rest).orElse fun _ => (some? Char.isDigit s).map fun _ => rest
  | _ => none

/-- Reads an exponent. -/
def exponent? : List Char → Option (List Char)
  | c :: rest =>
    if c = 'e' ∨ c = 'E' then some? Char.isDigit (dropOne (fun s => s == '+' || s == '-') rest)
    else none
  | [] => none

/-- The mark of an imaginary number. -/
def isImaginary (c : Char) : Bool := c == 'j' || c == 'J'

/-- Reads a number with a point or an exponent. -/
def float? (s : List Char) : Option (List Char) :=
  let mantissa := pointed? s
  let scaled := ((some? Char.isDigit s).bind exponent?).orElse fun _ => mantissa.bind exponent?
  (scaled.orElse fun _ => mantissa).map (dropOne isImaginary)

/-- Reads a number at the start: the rest, or what is wrong with it. -/
def number? (s : List Char) : Option (Except Remark (List Char)) :=
  let starts : Bool := match s with
    | '.' :: d :: _ => d.isDigit
    | d :: _ => d.isDigit
    | [] => false
  if !starts then none
  else
    let isOctal (c : Char) : Bool := '0' ≤ c && c ≤ '7'
    let isHex (c : Char) : Bool := (Decimal.hexDigit? c).isSome
    let isBinaryDigit (c : Char) : Bool := c == '0' || c == '1'
    let special := (based? 'o' 'O' isOctal s).orElse fun _ =>
      (based? 'x' 'X' isHex s).orElse fun _ =>
        (based? 'b' 'B' isBinaryDigit s).orElse fun _ => float? s
    match special with
    | some rest => some (.ok rest)
    | none =>
      let digits := s.takeWhile Char.isDigit
      match s.dropWhile Char.isDigit with
      | c :: rest =>
        if isImaginary c then some (.ok rest) else some ((plain digits).map fun _ => c :: rest)
      | [] => some ((plain digits).map fun _ => [])
where
  /-- Refuses a leading zero unless all digits are zeros. -/
  plain (digits : List Char) : Except Remark Unit :=
    if digits.head? = some '0' && digits.any (· != '0') then .error .leadingZero else .ok ()

/-! ## String literals -/

/-- How a string literal starts: raw or not, bytes or not, its quote, and whether that is
tripled. -/
structure Opening where
  raw : Bool
  bytes : Bool
  quote : Char
  tripled : Bool
deriving DecidableEq, Repr

/-- The markers in front of a string literal: raw, then bytes. -/
def markers? (s : List Char) : Option (Bool × Bool) :=
  match s.map Char.toLower with
  | [] => some (false, false)
  | ['r'] => some (true, false)
  | ['b'] => some (false, true)
  | ['u'] => some (false, false)
  | ['b', 'r'] => some (true, true)
  | ['r', 'b'] => some (true, true)
  | _ => none

/-- Reads the start of a string literal. -/
def opening? (s : List Char) : Option (Opening × List Char) := do
  let isQuote (c : Char) : Bool := c == Outline.apostrophe || c == '"'
  let marks := (s.take 3).takeWhile (! isQuote ·)
  let (raw, bytes) ← markers? marks
  match s.drop marks.length with
  | q :: rest =>
    if isQuote q then
      match rest with
      | q₂ :: q₃ :: more =>
        if q₂ = q ∧ q₃ = q then some (⟨raw, bytes, q, true⟩, more)
        else some (⟨raw, bytes, q, false⟩, rest)
      | _ => some (⟨raw, bytes, q, false⟩, rest)
    else none
  | [] => none

/-- Reads a string literal as far as its line goes: its characters, and what follows the closing
quotes, or that a backslash ends the line, or that the line just ends. -/
inductive Piece where
  | closed (content rest : List Char)
  | continued (content : List Char)
  | ended (content : List Char)

/-- Puts characters in front of the content of a piece. -/
def Piece.push (cs : List Char) : Piece → Piece
  | closed content rest => closed (cs ++ content) rest
  | continued content => continued (cs ++ content)
  | ended content => ended (cs ++ content)

/-- Reads the part of a string literal on one line. -/
def piece (o : Opening) : List Char → Piece
  | [] => .ended []
  | c :: rest =>
    match cut? (if o.tripled then [o.quote, o.quote, o.quote] else [o.quote]) (c :: rest) with
    | some after => .closed [] after
    | none =>
      if c = '\\' then
        match rest with
        | [] => .continued []
        | e :: rest => (piece o rest).push [c, e]
      else (piece o rest).push [c]

/-- Whether a text is the number of an escape: hexadecimal digits, perhaps with a sign in the place
of the first, whose value fits 32 bits with a sign. -/
def isEscapeNumber (s : List Char) : Bool :=
  match Decimal.hexInt? s with
  | some n => -2147483648 ≤ n && n ≤ 2147483647
  | none => false

/-- Checks the escapes of a string literal, whose next character has the position `n`. -/
def checkEscapes (bytes : Bool) : (fuel n : Nat) → List Char → Option Remark
  | 0, _, _ => none
  | _, _, [] => none
  | fuel + 1, n, '\\' :: letter :: rest =>
    let size := if letter = 'x' then 2
      else if bytes then 0
      else if letter = 'u' then 4
      else if letter = 'U' then 8
      else 0
    let digits := rest.take size
    if digits.length < size then some (.shortEscape letter n)
    else if 0 < size && !isEscapeNumber digits then some (.badEscape letter n)
    else checkEscapes bytes fuel (n + 2 + size) (rest.drop size)
  | fuel + 1, n, _ :: rest => checkEscapes bytes fuel (n + 1) rest

/-- A place in the text: what is left of the line, its number, and the lines after it. -/
structure Place where
  rest : List Char
  number : Nat
  later : List (List Char)
deriving Repr

/-- Reads a string literal over the lines that it takes. -/
def literal (o : Opening) (content : List Char) : (rest : List Char) → (number : Nat) →
    (later : List (List Char)) → Except (Remark × Place) (List Char × Place)
  | rest, number, later =>
    match piece o rest, later with
    | .closed more rest, _ => .ok (content ++ more, ⟨rest, number, later⟩)
    | .continued more, line :: later => literal o (content ++ more) line (number + 1) later
    | .ended more, line :: later =>
      if o.tripled then literal o (content ++ more ++ ['\n']) line (number + 1) later
      else .error (.lineEndInString, ⟨[], number, line :: later⟩)
    | .continued _, [] =>
      .error (if o.tripled then .textEndInString else .lineEndInString, ⟨[], number + 1, []⟩)
    | .ended _, [] =>
      if o.tripled then .error (.textEndInString, ⟨[], number + 1, []⟩)
      else .error (.lineEndInString, ⟨[], number, []⟩)
termination_by _ _ later => later.length

/-! ## The whole text -/

/-- Where the reading of a text stands. -/
structure Lexer where
  place : Place
  /-- The widths of the open blocks, innermost first. -/
  levels : List Nat
  /-- How many parentheses, brackets and braces are open. -/
  parentheses : Int := 0
  brackets : Int := 0
  braces : Int := 0

namespace Lexer

/-- Whether line ends do not count. -/
def inBrackets (l : Lexer) : Bool := l.parentheses != 0 || l.brackets != 0 || l.braces != 0

/-- Keeps count of brackets. -/
def count (l : Lexer) (op : String) : Lexer :=
  match op with
  | "(" => { l with parentheses := l.parentheses + 1 }
  | ")" => { l with parentheses := l.parentheses - 1 }
  | "[" => { l with brackets := l.brackets + 1 }
  | "]" => { l with brackets := l.brackets - 1 }
  | "\x7b" => { l with braces := l.braces + 1 }
  | "\x7d" => { l with braces := l.braces - 1 }
  | _ => l

/-- A lexeme that ends at the lexer's place. -/
def here (l : Lexer) (symbol : String) : Lexeme := { symbol, line := l.place.number }

/-- A lexeme that ends the list because something is wrong. -/
def wrong (l : Lexer) (r : Remark) : List Lexeme :=
  [{ symbol := "", line := l.place.number, remark := some r }]

/-- The lexemes at the end of the text: open blocks are closed. -/
def finish (l : Lexer) : List Lexeme :=
  let mark (symbol : String) : Lexeme := { symbol, line := l.place.number + 1, atEnd := true }
  (l.levels.dropLast.map fun _ => mark "DEDENT") ++ [mark "ENDMARKER"]

/-- Goes to the rest of a line. -/
def goto (l : Lexer) (rest : List Char) : Lexer := { l with place := { l.place with rest } }

/-- The width of an indentation of spaces and tabs. -/
def width (indent : List Char) : Nat :=
  indent.foldl (fun n c => if c = '\t' then Outline.tabStop n else n + 1) 0

/-- Whether only blanks or a comment are left. -/
def isIdle (s : List Char) : Bool :=
  match Text.trim s with
  | [] => true
  | c :: _ => c == '#'

/-- Whether a character may stand between lexemes. -/
def isSpace (c : Char) : Bool := c == ' ' || c == '\t'

/-- Opens or closes blocks for a line of a width, or finds it inconsistent. -/
def adjust (l : Lexer) (indent : Nat) : Except Remark (List Lexeme × Lexer) :=
  if l.levels.headD 0 < indent then
    .ok ([l.here "INDENT"], { l with levels := indent :: l.levels })
  else
    let outer := l.levels.dropWhile (indent < ·)
    if outer.headD 0 = indent then
      let closed := l.levels.length - outer.length
      .ok (List.replicate closed (l.here "DEDENT"), { l with levels := outer })
    else .error .inconsistentIndent

/-- Reads one lexeme that is no line end. -/
def token (l : Lexer) : Except (List Lexeme) (Lexeme × Lexer) :=
  let s := l.place.rest
  match number? s with
  | some (.ok rest) => .ok (l.here "NUMBER", l.goto rest)
  | some (.error r) => .error (l.wrong r)
  | none =>
    match opening? s with
    | some (o, rest) =>
      match literal o [] rest l.place.number l.place.later with
      | .error (r, place) =>
        .error [{ symbol := "", line := place.number, remark := some r }]
      | .ok (content, place) =>
        let l := { l with place }
        match if o.raw then none else checkEscapes o.bytes content.length 0 content with
        | some r => .error (l.wrong r)
        | none => .ok ({ l.here "STRING" with isBytes := o.bytes }, l)
    | none =>
      match word? s with
      | some (symbol, rest) => .ok (l.here symbol, l.goto rest)
      | none =>
        match operator? s with
        | some (op, rest) => .ok (l.here op, (l.count op).goto rest)
        | none => .error (l.wrong .invalid)

/-- Reads lexemes, at most `fuel` of them and of the lines and blanks between them. `fresh` says
that a line is still to be begun. -/
def run : (fuel : Nat) → (fresh : Bool) → Lexer → List Lexeme
  | 0, _, _ => []
  | fuel + 1, true, l =>
    match l.place.later with
    | [] => l.finish
    | line :: later =>
      let body := line.dropWhile isSpace
      let l := { l with place := ⟨body, l.place.number + 1, later⟩ }
      if isIdle body then run fuel true l
      else if l.inBrackets then run fuel false l
      else match l.adjust (width (line.takeWhile isSpace)) with
        | .error r => l.wrong r
        | .ok (marks, l) => marks ++ run fuel false l
  | fuel + 1, false, l =>
    let l := l.goto (l.place.rest.dropWhile isSpace)
    match l.place.rest with
    | [] => newline fuel l
    | '#' :: _ => newline fuel l
    | ['\\'] =>
      match l.place.later with
      | [] => l.finish
      | line :: later => run fuel false { l with place := ⟨line, l.place.number + 1, later⟩ }
    | _ =>
      match l.token with
      | .error last => last
      | .ok (lexeme, l) => lexeme :: run fuel false l
where
  /-- Ends a line, which counts outside brackets. -/
  newline (fuel : Nat) (l : Lexer) : List Lexeme :=
    if l.inBrackets then run fuel true l else l.here "NEWLINE" :: run fuel true l

end Lexer

/-- The physical lines of a text, the last of which need not have a line end. -/
def physicalLines (text : List Char) : List (List Char) :=
  let dropReturn (line : List Char) : List Char :=
    if line.getLast? = some '\r' then line.dropLast else line
  (Text.pieces '\n' (Text.dropFinalLineFeed text)).map dropReturn

/-- The lexemes of a text. -/
def lexemes (text : List Char) : List Lexeme :=
  let lines := physicalLines text
  Lexer.run (2 * (text.length + lines.length) + 2) true ⟨⟨[], 0, lines⟩, [0], 0, 0, 0⟩

end Contour.Script
