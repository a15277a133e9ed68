import Contour.Command.Convert
import Contour.Command.Keep

/-!
# Reading flags

Flags with a value are read one after the other (`parseFlags_text`) up to the first argument that is
none (`parseFlags_argument`).
-/

namespace Contour.Command

/-- Whether a flag with a name takes a text. -/
def TakesText (flags : List Flag) (name : String) : Prop :=
  ∃ flag initial, flags.find? (·.name == name) = some flag ∧ flag.kind = .text initial

/-- A flag of a text takes the argument after it. -/
theorem parseFlags_text {flags : List Flag} {a name value : String}
    (hshape : shape a = .flag name none) (hflag : TakesText flags name) (rest : List String) :
    parseFlags flags (a :: value :: rest) =
      (parseFlags flags rest).map (Parsed.cons name value) := by
  obtain ⟨flag, initial, hfind, hkind⟩ := hflag
  rw [parseFlags, hshape]
  simp only [hfind, hkind]

/-- The first argument that is no flag ends the flags. -/
theorem parseFlags_argument {a : String} (h : shape a = .argument) (flags : List Flag)
    (rest : List String) : parseFlags flags (a :: rest) = .ok { arguments := a :: rest } := by
  rw [parseFlags, h]

/-- What does not start with a dash is no flag. -/
theorem shape_of_head {a : String} (h : a.toList.head? ≠ some '-') : shape a = .argument := by
  unfold shape
  split <;> simp_all

theorem shape_i : shape "-i" = .flag "i" none := by decide +kernel

theorem shape_o : shape "-o" = .flag "o" none := by decide +kernel

theorem shape_f : shape "-f" = .flag "f" none := by decide +kernel

theorem takesText_mainFlags :
    TakesText mainFlags "i" ∧ TakesText mainFlags "o" ∧ TakesText mainFlags "f" := by
  simp [TakesText, mainFlags, Flag.pair]

theorem takesText_putFlags (o : Options) : TakesText (putFlags o) "i" := by
  simp [TakesText, putFlags, Flag.pair]

theorem takesText_runFlags (o : Options) : TakesText (runFlags o) "f" := by
  simp [TakesText, runFlags, Flag.pair]

/-! ## Command lines -/

/-- A kind of input and a format for a file. -/
theorem parseFlags_input_format (kind format : String) {input : String}
    (hinput : shape input = .argument) :
    parseFlags mainFlags ["-i", kind, "-f", format, input] =
      .ok { settings := [("i", kind), ("f", format)], arguments := [input] } := by
  obtain ⟨hi, -, hf⟩ := takesText_mainFlags
  rw [parseFlags_text shape_i hi, parseFlags_text shape_f hf, parseFlags_argument hinput]
  rfl

/-- Kinds of input and output for a file and what follows it. -/
theorem parseFlags_input_output (kind kind' : String) {input : String}
    (hinput : shape input = .argument) (rest : List String) :
    parseFlags mainFlags ("-i" :: kind :: "-o" :: kind' :: input :: rest) =
      .ok { settings := [("i", kind), ("o", kind')], arguments := input :: rest } := by
  obtain ⟨hi, ho, -⟩ := takesText_mainFlags
  rw [parseFlags_text shape_i hi, parseFlags_text shape_o ho, parseFlags_argument hinput]
  rfl

/-- A kind of input for a file that is put on the shelf. -/
theorem parseFlags_put (o : Options) (kind input : String) {name : String}
    (hname : shape name = .argument) :
    parseFlags (putFlags o) ["-i", kind, name, input] =
      .ok { settings := [("i", kind)], arguments := [name, input] } := by
  rw [parseFlags_text shape_i (takesText_putFlags o), parseFlags_argument hname]
  rfl

/-- A format for a program on the shelf. -/
theorem parseFlags_run (o : Options) (format : String) {name : String}
    (hname : shape name = .argument) :
    parseFlags (runFlags o) ["-f", format, name] =
      .ok { settings := [("f", format)], arguments := [name] } := by
  rw [parseFlags_text shape_f (takesText_runFlags o), parseFlags_argument hname]
  rfl

end Contour.Command
