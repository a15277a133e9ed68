import Contour.Channel
import Contour.Text.Blank

/-!
# Consoles

A console joins a text to read from and a text that has been written. In the format `char` a value
is one character; in the format `number` a value is a whole number in decimal, read between blanks
and written on a line of its own. At the end of the input every value is zero.
-/

namespace Contour

/-- How values and characters correspond. -/
inductive Format where
  | char
  | number
deriving DecidableEq, Repr, Inhabited

/-- The format with a name. -/
def Format.ofName? (s : String) : Option Format :=
  if s = "char" then some .char else if s = "number" then some .number else none

/-- The format with a name, or the message that there is none. -/
def Format.ofName (s : String) : Except String Format :=
  match ofName? s with
  | some format => .ok format
  | none => .error ("unknown I/O format " ++ Text.quoted s ++ " (want char or number)")

/-- An input that is partly read and an output that is partly written. -/
structure Console where
  format : Format
  /-- The input that has not been read. -/
  input : List Char
  /-- What reading meets after the input: the end, or a failure. -/
  failure : Option String := none
  /-- The output so far. -/
  output : String := ""
  /-- How many more values can be written, if that is limited. -/
  room : Option Nat := none
deriving DecidableEq, Repr

namespace Console

/-- What reading past the input gives: zero at its end, or the failure. -/
def atEnd (c : Console) : Except ChannelError Int :=
  match c.failure with
  | none => .ok 0
  | some reason => .error (.input reason)

/-- Reads one character. -/
def readChar (c : Console) : Except ChannelError Int × Console :=
  match c.input with
  | [] => (c.atEnd, c)
  | ch :: rest => (.ok ch.toNat, { c with input := rest })

/-- Reads one word between blanks as a number, and the blank after it. A word that the failure of
the input cuts off is lost. -/
def readNumber (c : Console) : Except ChannelError Int × Console :=
  let start := Text.trimStart c.input
  let word := start.takeWhile (! Text.isBlank ·)
  match start.dropWhile (! Text.isBlank ·) with
  | _ :: rest => (parsed word, { c with input := rest })
  | [] =>
    let c' := { c with input := [] }
    if word.isEmpty then (c.atEnd, c')
    else match c.failure with
      | some reason => (.error (.input reason), c')
      | none => (parsed word, c')
where
  /-- The number that a word writes. -/
  parsed (word : List Char) : Except ChannelError Int :=
    match Decimal.int? word with
    | some n => .ok n
    | none => .error (.notANumber (String.ofList word))

/-- The character written for a value; a value that is no character writes U+FFFD. -/
def charOf (n : Int) : Char :=
  if 0 ≤ n ∧ n.toNat.isValidChar then Char.ofNat n.toNat else Char.ofNat 0xfffd

/-- The text written for a value. -/
def render (f : Format) (n : Int) : String :=
  match f with
  | .char => String.ofList [charOf n]
  | .number => Decimal.text n ++ "\n"

/-- Writes one value, as long as there is room. -/
def write (n : Int) (c : Console) : Except ChannelError Unit × Console :=
  match c.room with
  | some 0 => (.error (.output "disk full"), c)
  | some (k + 1) => (.ok (), { c with output := c.output ++ render c.format n, room := some k })
  | none => (.ok (), { c with output := c.output ++ render c.format n })

/-- Reads one value. -/
def read (c : Console) : Except ChannelError Int × Console :=
  match c.format with
  | .char => c.readChar
  | .number => c.readNumber

/-- A console as a channel. -/
def channel : Channel Console := ⟨read, write⟩

/-- A console as a channel whose output comes back as its input. -/
def loopChannel : Channel Console where
  read := read
  write n c :=
    match c.write n with
    | (.ok (), c) => (.ok (), { c with input := c.input ++ (render c.format n).toList })
    | (.error e, c) => (.error e, c)

end Console

end Contour
