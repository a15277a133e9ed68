import Contour.Text.Quoted

/-!
# Channels

A running program meets the world through a channel: it reads whole numbers one at a time and writes
whole numbers one at a time, and either may fail. The channel keeps a state of its own, which a
failed call may change too.
-/

namespace Contour

/-- Why a channel fails. -/
inductive ChannelError where
  /-- The input could not be read. -/
  | input (reason : String)
  /-- A word of the input is no number. -/
  | notANumber (word : String)
  /-- The output could not be written. -/
  | output (reason : String)
deriving DecidableEq, Repr

/-- The wording of a failure. -/
def ChannelError.message : ChannelError → String
  | input reason => "read: " ++ reason
  | notANumber word => "read: invalid number " ++ Text.quoted word
  | output reason => "print: " ++ reason

/-- Reading and writing, over the states `σ` of the world. -/
structure Channel (σ : Type) where
  read : σ → Except ChannelError Int × σ
  write : Int → σ → Except ChannelError Unit × σ

/-- The channel of a program without input and output: it reads zeros and discards what is
written. -/
def Channel.silent : Channel Unit where
  read _ := (.ok 0, ())
  write _ _ := (.ok (), ())

end Contour
