import Contour.Assembly

/-!
# Delta streams

A program as a list of deltas. `Stream.assemble` writes instructions as deltas and `Stream.decode`
reads them back. Reading walks over the stream in spans (`Stream.spans`): an operation with the
number after it, a comment, or a single delta that selects nothing. Only the first kind is an
instruction.
-/

namespace Contour.Stream

/-! ## Writing -/

/-- An instruction that the table does not have. -/
structure UnknownMnemonic where
  mnemonic : String
  line : Nat
deriving DecidableEq, Repr

/-- The deltas of one instruction: the key, and the argument if one is written and allowed. -/
def encode (i : Instruction) : Except UnknownMnemonic (List Delta) :=
  match i.opcode? with
  | none => .error ⟨i.mnemonic, i.line⟩
  | some op =>
    match op.takesArgument, i.argument with
    | true, some n => .ok (op.key :: Numeral.encode n)
    | _, _ => .ok [op.key]

/-- The deltas of a program; the first unknown mnemonic is an error. -/
def assemble : List Instruction → Except UnknownMnemonic (List Delta)
  | [] => .ok []
  | i :: rest => do
    let head ← encode i
    let tail ← assemble rest
    return head ++ tail

/-! ## Reading -/

/-- How many deltas after a comment's first one the comment covers: a positive weight counts them,
and a negative one asks for all up to the next delta of index zero and negative weight. -/
def commentTail (w : Int64) (rest : List Delta) : Nat :=
  if 0 < w then min w.toInt.toNat rest.length
  else if w < 0 then
    let inside := rest.takeWhile fun d => !(d.index == 0 && d.weight < 0)
    min (inside.length + 1) rest.length
  else 0

/-- What a span of the stream holds. -/
inductive Content where
  /-- An operation with its argument. -/
  | operation (op : Opcode) (argument : Option Int)
  /-- A comment. -/
  | comment
  /-- A delta that selects no operation. -/
  | unused
deriving DecidableEq, Repr

/-- What starts at `d`, and how many of the deltas after it belong to it. -/
def readSpan (d : Delta) (rest : List Delta) : Content × Nat :=
  match Opcode.ofDelta? d with
  | some op =>
    if op.takesArgument then
      let number := Numeral.read rest op.defaultArgument
      (.operation op (some number.value), number.consumed)
    else (.operation op none, 0)
  | none => if d.index == 0 then (.comment, commentTail d.weight rest) else (.unused, 0)

/-- A span of the stream: its position, its content, and its length. -/
structure Span where
  offset : Nat
  content : Content
  length : Nat
deriving DecidableEq, Repr

/-- The spans of a stream whose first delta has the position `offset`. -/
def spansFrom (offset : Nat) : List Delta → List Span
  | [] => []
  | d :: rest =>
    let (content, extra) := readSpan d rest
    ⟨offset, content, 1 + extra⟩ :: spansFrom (offset + (1 + extra)) (rest.drop extra)
termination_by ds => ds.length
decreasing_by simp only [List.length_drop, List.length_cons]; omega

/-- The spans of a stream from its start. -/
def spans (ds : List Delta) : List Span := spansFrom 0 ds

/-- The instruction of a span. -/
def Span.instruction? (s : Span) : Option Instruction :=
  match s.content with
  | .operation op argument => some { mnemonic := op.name, argument, offset := s.offset }
  | _ => none

/-- The instructions of a stream. -/
def decode (ds : List Delta) : List Instruction := (spans ds).filterMap Span.instruction?

/-! ## Disassembly -/

/-- A stream as assembly, one line for each instruction. -/
def disassemble (ds : List Delta) : List String := (decode ds).map Instruction.text

/-- The line of an annotated listing for one instruction: its text, its position and its first
delta. -/
def listingLine (ds : List Delta) (i : Instruction) : String :=
  let first := (ds[i.offset]?).getD ⟨0, 0⟩
  String.ofList (Decimal.spacePadded 16 i.text.toList) ++ " ; " ++
    String.ofList (Decimal.zeroPadded 4 (Decimal.nat i.offset)) ++ " " ++ first.text ++ "\n"

/-- An annotated listing, under a name unless that is empty. It can be assembled again. -/
def listing (name : String) (ds : List Delta) : String :=
  let is := decode ds
  let title := if name = "" then "" else "; === " ++ name ++ " ===\n"
  title ++ "; Fython assembly: " ++ Decimal.text ds.length ++ " deltas, " ++
    Decimal.text is.length ++ " instructions\n\n" ++ String.join (is.map (listingLine ds))

end Contour.Stream
