import Contour.Outline
import Contour.Text.Decimal
import Contour.Text.Utf8
import Contour.Word

/-!
# Statements of a configuration text

A configuration text in TOML is a list of statements: assignments to keys, headers of tables, and
headers of elements of an array of tables. `statements?` reads them. Values that no setting has
(floating numbers, dates and times) are checked for their form, and their content is not kept.
-/

namespace Contour.Toml

/-- A key with dots, as the list of its parts. -/
abbrev Key := List String

/-- A value as it is written. -/
inductive Value where
  | string (s : String)
  | integer (n : Int64)
  | bool (b : Bool)
  /-- A floating number. -/
  | float
  /-- A date, a time, or both. -/
  | moment
  | array (items : List Value)
  /-- A table on one line, with the keys as they are written. -/
  | inline (entries : List (Key × Value))
deriving Repr, Inhabited

/-- A statement. -/
inductive Statement where
  | assignment (key : Key) (value : Value)
  /-- The header of a table. -/
  | table (key : Key)
  /-- The header of the next element of an array of tables. -/
  | element (key : Key)
deriving Repr, Inhabited

/-! ## Characters -/

/-- Spaces and tabs. -/
def isSpace (c : Char) : Bool := c == ' ' || c == '\t'

/-- The characters of line ends. -/
def isLineEnd (c : Char) : Bool := c == '\n' || c == '\r'

/-- Drops spaces and tabs. -/
def skipSpaces (s : List Char) : List Char := s.dropWhile isSpace

/-- Drops blanks, line ends and comments; `inside` says that a comment has begun. -/
def skipFiller (inside : Bool) : List Char → List Char
  | [] => []
  | c :: rest =>
    if inside then skipFiller (!isLineEnd c) rest
    else if isSpace c || isLineEnd c then skipFiller false rest
    else if c == '#' then skipFiller true rest
    else c :: rest

/-- Whether all characters may occur in a text: no control characters but tabs and line ends, and no
carriage return without a line feed. -/
def isPlain : List Char → Bool
  | [] => true
  | '\r' :: rest => rest.head? == some '\n' && isPlain rest
  | c :: rest => (c == '\t' || c == '\n' || (0x20 ≤ c.toNat && c.toNat != 0x7f)) && isPlain rest

/-! ## Strings -/

/-- The character of an escape letter that stands for one. -/
def escaped? : Char → Option Char
  | 'b' => some (Char.ofNat 8)
  | 't' => some '\t'
  | 'n' => some '\n'
  | 'f' => some (Char.ofNat 12)
  | 'r' => some '\r'
  | 'e' => some (Char.ofNat 27)
  | '"' => some '"'
  | '\\' => some '\\'
  | _ => none

/-- The character with a hexadecimal number, of exactly `n` digits. -/
def numbered? (n : Nat) (s : List Char) : Option (Char × List Char) := do
  let ds ← (s.take n).mapM Decimal.hexDigit?
  let code := Decimal.hexValue ds
  if ds.length = n ∧ code.isValidChar then some (Char.ofNat code, s.drop n) else none

/-- Reads an escape after its backslash. -/
def escape? : List Char → Option (Char × List Char)
  | 'x' :: rest => numbered? 2 rest
  | 'u' :: rest => numbered? 4 rest
  | 'U' :: rest => numbered? 8 rest
  | c :: rest => (escaped? c).map (·, rest)
  | [] => none

/-- Reads a string with escapes on one line, after its opening quote. -/
def basic : (fuel : Nat) → List Char → Option (List Char × List Char)
  | 0, _ => none
  | _, [] => none
  | fuel + 1, c :: rest =>
    if c = '"' then some ([], rest)
    else if c = '\\' then do
      let (e, rest) ← escape? rest
      let (more, rest) ← basic fuel rest
      return (e :: more, rest)
    else if isLineEnd c then none
    else (basic fuel rest).map fun (more, rest) => (c :: more, rest)

/-- Reads a string without escapes on one line, after its opening quote. -/
def raw : List Char → Option (List Char × List Char)
  | [] => none
  | c :: rest =>
    if c = Outline.apostrophe then some ([], rest)
    else if isLineEnd c then none
    else (raw rest).map fun (more, rest) => (c :: more, rest)

/-- How a run of quotes ends a string in triple quotes: the quotes that still belong to it. Fewer
than three do not end it, and more than five cannot stand there, or six after a backslash. -/
def closing? (afterBackslash : Bool) (run : Nat) : Option Nat :=
  if 3 ≤ run ∧ run ≤ (if afterBackslash then 6 else 5) then some (run - 3) else none

/-- Reads a string in triple quotes after the opening ones; a backslash escapes unless `verbatim`,
and `escaped` says whether an escaped backslash was just read. -/
def triple (quote : Char) (verbatim : Bool) :
    (fuel : Nat) → (escaped : Bool) → List Char → Option (List Char × List Char)
  | 0, _, _ => none
  | _, _, [] => none
  | fuel + 1, escaped, c :: rest =>
    if c = quote then
      let run := ((c :: rest).takeWhile (· == quote)).length
      let after := (c :: rest).dropWhile (· == quote)
      if run < 3 then
        (triple quote verbatim fuel false after).map fun (more, rest) =>
          (List.replicate run quote ++ more, rest)
      else (closing? escaped run).map fun n => (List.replicate n quote, after)
    else if c = '\\' ∧ !verbatim then
      let gap := rest.takeWhile fun c => isSpace c || isLineEnd c
      if gap.contains '\n' then triple quote verbatim fuel false (rest.drop gap.length)
      else do
        let backslash := rest.head? == some '\\'
        let (e, rest) ← escape? rest
        let (more, rest) ← triple quote verbatim fuel backslash rest
        return (e :: more, rest)
    else (triple quote verbatim fuel false rest).map fun (more, rest) => (c :: more, rest)

/-- Drops a line end right after opening quotes. -/
def dropFirstLineEnd : List Char → List Char
  | '\r' :: '\n' :: rest => rest
  | '\n' :: rest => rest
  | s => s

/-- Reads a string value, if one starts here. -/
def string? (s : List Char) : Option (List Char × List Char) :=
  match s with
  | a :: b :: c :: rest =>
    if a = '"' ∧ b = '"' ∧ c = '"' then triple '"' false s.length false (dropFirstLineEnd rest)
    else if a = Outline.apostrophe ∧ b = a ∧ c = a then
      triple Outline.apostrophe true s.length false (dropFirstLineEnd rest)
    else line s
  | _ => line s
where
  /-- A string on one line. -/
  line : List Char → Option (List Char × List Char)
    | '"' :: rest => basic (rest.length + 1) rest
    | c :: rest => if c = Outline.apostrophe then raw rest else none
    | [] => none

/-! ## Keys -/

/-- The characters of keys without quotes. -/
def isBare (c : Char) : Bool := c.isAlphanum || c == '_' || c == '-'

/-- Reads one part of a key. -/
def part? (s : List Char) : Option (String × List Char) :=
  match s with
  | [] => none
  | c :: rest =>
    if c = '"' then (basic (rest.length + 1) rest).map fun (k, rest) => (String.ofList k, rest)
    else if c = Outline.apostrophe then (raw rest).map fun (k, rest) => (String.ofList k, rest)
    else if isBare c then some (String.ofList (s.takeWhile isBare), s.dropWhile isBare)
    else none

/-- Reads a key with dots, and the spaces around its parts. -/
def key? : (fuel : Nat) → List Char → Option (Key × List Char)
  | 0, _ => none
  | fuel + 1, s => do
    let (part, rest) ← part? (skipSpaces s)
    match skipSpaces rest with
    | '.' :: rest =>
      let (more, rest) ← key? fuel rest
      return (part :: more, rest)
    | rest => return ([part], rest)

/-! ## Numbers and dates -/

/-- Whether every underscore has a digit before it and the text ends in a digit. -/
def underscoresOk (s : List Char) : Bool :=
  let isDigit (c : Char) : Bool := (Decimal.hexDigit? c).isSome
  let (ok, last) :=
    s.foldl (fun (ok, last) c => (ok && (c != '_' || last), isDigit c)) (true, false)
  ok && last

/-- Whether a decimal number starts with a zero that should not be there. -/
def hasLeadingZero (s : List Char) : Bool :=
  match s with
  | '0' :: _ :: _ => true
  | sign :: '0' :: _ :: _ => sign == '-' || sign == '+'
  | _ => false

/-- The value of a decimal integer. -/
def decimal? (s : List Char) : Option Int64 :=
  if underscoresOk s && !hasLeadingZero s then
    (Decimal.int? (s.filter (· != '_'))).bind Word.ofInt?
  else none

/-- The value of the digits of an integer in another base. -/
def based? (base : Nat) (digits : List Char) : Option Int64 :=
  if underscoresOk digits then do
    let ds ← (digits.filter (· != '_')).mapM Decimal.hexDigit?
    Word.ofInt? (ds.foldl (fun acc d => acc * base + d) 0 : Nat)
  else none

/-- Splits a text at characters satisfying `p`, leaving out empty pieces. -/
def fields (p : Char → Bool) (s : List Char) : List (List Char) :=
  let (done, last) := s.foldl
    (fun (done, cur) c => if p c then (cur :: done, []) else (done, c :: cur))
    (([] : List (List Char)), ([] : List Char))
  ((last :: done).reverse.map List.reverse).filter (!·.isEmpty)

/-- Whether a point always has a digit after it. -/
def pointsOk : List Char → Bool
  | [] => true
  | '.' :: rest => (match rest with | d :: _ => d.isDigit | [] => false) && pointsOk rest
  | _ :: rest => pointsOk rest

/-- A decimal with exponent: its digits and the power of ten that scales them. -/
def scientific? (s : List Char) : Option (Nat × Int) :=
  let s := match s with
    | c :: rest => if c == '+' || c == '-' then rest else s
    | [] => s
  let mantissa := s.takeWhile fun c => c != 'e' && c != 'E'
  let whole := mantissa.takeWhile Char.isDigit
  let exponent : Option Int := match s.drop mantissa.length with
    | [] => some 0
    | _ :: e => Decimal.int? e
  match mantissa.drop whole.length, exponent with
  | [], some e => (Decimal.nat? whole).map (·, e)
  | '.' :: fraction, some e => (Decimal.nat? (whole ++ fraction)).map (·, e - fraction.length)
  | _, _ => none

/-- Whether a decimal is within the range of double precision. -/
def isFinite (digits : Nat) (e : Int) : Bool :=
  let limit := Nat.pow 2 1024 - Nat.pow 2 970
  if digits == 0 || e + (Decimal.digits digits).length < 308 then true
  else if 310 < e + (Decimal.digits digits).length then false
  else if 0 ≤ e then digits * Nat.pow 10 e.toNat < limit
  else digits < limit * Nat.pow 10 e.natAbs

/-- Whether a text is a floating number. -/
def isFloat (s : List Char) : Bool :=
  let parts := fields (fun c => c == '.' || c == 'e' || c == 'E') s
  parts.all underscoresOk && !((parts.head?.map hasLeadingZero).getD false) && pointsOk s &&
    match scientific? (s.filter (· != '_')) with
    | some (digits, e) => isFinite digits e
    | none => false

/-- Reads exactly `n` digits. -/
def number? (n : Nat) (s : List Char) : Option (Nat × List Char) :=
  if (s.take n).length = n then (Decimal.nat? (s.take n)).map (·, s.drop n) else none

/-- Reads a character. -/
def char? (c : Char) : List Char → Option (List Char)
  | d :: rest => if d = c then some rest else none
  | [] => none

/-- The number of days in a month. -/
def daysIn (year month : Nat) : Nat :=
  if month = 2 then
    if year % 4 == 0 && (year % 100 != 0 || year % 400 == 0) then 29 else 28
  else if month = 4 ∨ month = 6 ∨ month = 9 ∨ month = 11 then 30
  else 31

/-- Reads a date. -/
def date? (s : List Char) : Option (List Char) := do
  let (year, s) ← number? 4 s
  let (month, s) ← number? 2 (← char? '-' s)
  let (day, s) ← number? 2 (← char? '-' s)
  if 1 ≤ month ∧ month ≤ 12 ∧ 1 ≤ day ∧ day ≤ daysIn year month then some s else none

/-- Reads a time of day, with or without seconds. -/
def time? (s : List Char) : Option (List Char) := do
  let (hour, s) ← number? 2 s
  let (minute, s) ← number? 2 (← char? ':' s)
  if 24 ≤ hour ∨ 60 ≤ minute then none
  else match s with
    | ':' :: s =>
      let (second, s) ← number? 2 s
      if 60 ≤ second then none
      else match s with
        | '.' :: d :: s => if d.isDigit then some (s.dropWhile Char.isDigit) else none
        | s => some s
    | s => some s

/-- Whether a text is the offset of a time from universal time, or empty. -/
def isOffset : List Char → Bool
  | [] => true
  | ['Z'] => true
  | sign :: s => (sign == '+' || sign == '-') &&
    match (do
      let (hour, s) ← number? 2 s
      let (minute, s) ← number? 2 (← char? ':' s)
      return (hour, minute, s)) with
    | some (hour, minute, []) => hour ≤ 24 && minute ≤ 60
    | _ => false

/-- Whether a text is a date, a time, or both. -/
def isMoment (s : List Char) : Bool :=
  let s := s.map fun c => if c == 'z' then 'Z' else if c == 't' || c == ' ' then 'T' else c
  match date? s with
  | some [] => true
  | some ('T' :: s) => (match time? s with | some s => isOffset s | none => false)
  | some _ => false
  | none => time? s == some []

/-- Reads a value that starts with a digit or a sign. -/
def numeric? (s : List Char) : Option (Value × List Char) :=
  let isDecimal (c : Char) : Bool := c.isDigit || c == '_'
  let isFloatChar (c : Char) : Bool :=
    isDecimal c || c == '.' || c == '-' || c == '+' || c == 'e' || c == 'E'
  let isMomentChar (c : Char) : Bool :=
    c.isDigit || c == '-' || c == ':' || c == 'T' || c == 't' || c == ' ' || c == '.' || c == 'Z' ||
      c == 'z' || c == '+'
  let sign := s.takeWhile fun c => c == '+' || c == '-'
  let unsigned := s.drop sign.length
  let integer : Option (Value × List Char) :=
    let digits := unsigned.takeWhile isDecimal
    match unsigned.drop digits.length with
    | c :: rest =>
      if c == '.' || c == 'e' || c == 'E' then
        let tail := rest.takeWhile isFloatChar
        if isFloat (sign ++ digits ++ c :: tail) then some (.float, rest.drop tail.length) else none
      else (decimal? (sign ++ digits)).map fun n => (.integer n, c :: rest)
    | [] => (decimal? (sign ++ digits)).map fun n => (.integer n, [])
  let inBase (base : Nat) (p : Char → Bool) (rest : List Char) : Option (Value × List Char) :=
    let digits := rest.takeWhile fun c => p c || c == '_'
    if !sign.isEmpty then none
    else (based? base digits).map fun n => (.integer n, rest.drop digits.length)
  if 1 < sign.length then none
  else match unsigned with
    | '0' :: 'x' :: rest => inBase 16 (fun c => (Decimal.hexDigit? c).isSome) rest
    | '0' :: 'o' :: rest => inBase 8 (fun c => '0' ≤ c && c ≤ '7') rest
    | '0' :: 'b' :: rest => inBase 2 (fun c => c == '0' || c == '1') rest
    | 'i' :: 'n' :: 'f' :: rest => some (.float, rest)
    | 'n' :: 'a' :: 'n' :: rest => some (.float, rest)
    | d :: _ =>
      if !d.isDigit then none
      else
        let next := (unsigned.dropWhile Char.isDigit).head?
        if sign.isEmpty && (next == some '-' || next == some ':') then
          let token := unsigned.takeWhile isMomentChar
          let trimmed := (token.reverse.dropWhile (· == ' ')).reverse
          if isMoment trimmed then some (.moment, unsigned.drop token.length) else none
        else integer
    | [] => none

/-! ## Values and statements -/

mutual

/-- Reads a value. -/
def value? : (fuel : Nat) → List Char → Option (Value × List Char)
  | 0, _ => none
  | fuel + 1, s =>
    let s := skipSpaces s
    match s with
    | '[' :: rest => (items? fuel (skipFiller false rest)).map fun (vs, rest) => (.array vs, rest)
    | '\x7b' :: rest =>
      (entries? fuel (skipFiller false rest)).map fun (es, rest) => (.inline es, rest)
    | 't' :: 'r' :: 'u' :: 'e' :: rest => some (.bool true, rest)
    | 'f' :: 'a' :: 'l' :: 's' :: 'e' :: rest => some (.bool false, rest)
    | c :: _ =>
      if c = '"' ∨ c = Outline.apostrophe then
        (string? s).map fun (t, rest) => (.string (String.ofList t), rest)
      else numeric? s
    | [] => none

/-- Reads the items of an array up to its bracket. -/
def items? : (fuel : Nat) → List Char → Option (List Value × List Char)
  | 0, _ => none
  | fuel + 1, s =>
    match s with
    | ']' :: rest => some ([], rest)
    | s => do
      let (v, rest) ← value? fuel s
      match skipFiller false rest with
      | ',' :: rest =>
        let (vs, rest) ← items? fuel (skipFiller false rest)
        return (v :: vs, rest)
      | ']' :: rest => return ([v], rest)
      | _ => none

/-- Reads the entries of a table on one line up to its brace. -/
def entries? : (fuel : Nat) → List Char → Option (List (Key × Value) × List Char)
  | 0, _ => none
  | fuel + 1, s =>
    match s with
    | '\x7d' :: rest => some ([], rest)
    | s => do
      let (entry, rest) ← assignment? fuel s
      match skipFiller false rest with
      | ',' :: rest =>
        let (es, rest) ← entries? fuel (skipFiller false rest)
        return (entry :: es, rest)
      | '\x7d' :: rest => return ([entry], rest)
      | _ => none

/-- Reads a key, an equals sign and a value. -/
def assignment? : (fuel : Nat) → List Char → Option ((Key × Value) × List Char)
  | 0, _ => none
  | fuel + 1, s => do
    let (key, rest) ← key? (s.length + 1) s
    match rest with
    | '=' :: rest =>
      let (v, rest) ← value? fuel rest
      return ((key, v), rest)
    | _ => none

end

/-- Reads the end of a statement: spaces, a comment, and a line end or the end of the text. -/
def statementEnd? (s : List Char) : Option (List Char) :=
  match skipSpaces s with
  | [] => some []
  | c :: rest =>
    if c = '#' then some (rest.dropWhile (!isLineEnd ·))
    else if isLineEnd c then some rest
    else none

/-- Reads a statement. -/
def statement? (s : List Char) : Option (Statement × List Char) :=
  match s with
  | '[' :: '[' :: rest => do
    let (key, rest) ← key? (rest.length + 1) rest
    match rest with
    | ']' :: ']' :: rest => return (.element key, rest)
    | _ => none
  | '[' :: rest => do
    let (key, rest) ← key? (rest.length + 1) rest
    match rest with
    | ']' :: rest => return (.table key, rest)
    | _ => none
  | s => (assignment? (2 * s.length + 2) s).map fun ((key, v), rest) => (.assignment key v, rest)

/-- Reads statements to the end of the text. -/
def statementsFor : (fuel : Nat) → List Char → Option (List Statement)
  | 0, _ => none
  | fuel + 1, s =>
    match skipFiller false s with
    | [] => some []
    | s => do
      let (statement, rest) ← statement? s
      let more ← statementsFor fuel (← statementEnd? rest)
      return statement :: more

/-- Drops a byte order mark. -/
def dropMark : List UInt8 → List UInt8
  | 0xef :: 0xbb :: 0xbf :: rest => rest
  | 0xff :: 0xfe :: rest => rest
  | 0xfe :: 0xff :: rest => rest
  | bytes => bytes

/-- The statements of a configuration text. -/
def statements? (bytes : List UInt8) : Option (List Statement) :=
  let bytes := dropMark bytes
  let text := Utf8.decode bytes
  if Utf8.isValid bytes && isPlain text then statementsFor (text.length + 1) text else none

end Contour.Toml
