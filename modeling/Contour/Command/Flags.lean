import Contour.Text.Quoted

/-!
# Flags

A command line starts with flags: a dash or two, a name, and, after an equals sign or as the next
argument, a value. Flags that are switches need no value. `parseFlags` reads the flags up to the
first argument that is none, or up to two dashes alone. What it gives is the list of settings in the
order in which they were made; a later setting of a name counts (`Parsed.last?`).
-/

namespace Contour.Command

/-- What a flag takes. -/
inductive FlagKind where
  /-- Any text. -/
  | text (default : String)
  /-- A truth value. -/
  | switch (default : Bool)
  /-- A truth value, and the true ones are counted. -/
  | counter
deriving DecidableEq, Repr

/-- A flag that a command knows. -/
structure Flag where
  name : String
  kind : FlagKind
  description : String
deriving DecidableEq, Repr

/-- A flag for a text with a long and a short name. -/
def Flag.pair (long short default description : String) : List Flag :=
  [⟨long, .text default, description⟩, ⟨short, .text default, "Shorthand for -" ++ long⟩]

/-! ## Usage -/

/-- What a flag takes, as it is shown after its name. -/
def Flag.placeholder (f : Flag) : String :=
  match f.kind with
  | .text _ => " string"
  | _ => ""

/-- The default of a flag, as it is shown after its description. -/
def Flag.shownDefault (f : Flag) : String :=
  match f.kind with
  | .text "" => ""
  | .text default => " (default " ++ Text.quoted default ++ ")"
  | .switch true => " (default true)"
  | _ => ""

/-- The lines about a flag; a name of one letter without a value is followed by its description. -/
def Flag.usage (f : Flag) : String :=
  let head := "  -" ++ f.name ++ f.placeholder
  let gap := if head.utf8ByteSize ≤ 4 then "\t" else "\n    \t"
  head ++ gap ++ f.description ++ f.shownDefault ++ "\n"

/-- The lines about all flags, in the order of their names. -/
def usageOf (flags : List Flag) : String :=
  String.join ((flags.mergeSort fun a b => decide (a.name ≤ b.name)).map Flag.usage)

/-- The usage of a command that has nothing else to say. -/
def plainUsage (command : String) (flags : List Flag) : String :=
  "Usage of " ++ command ++ ":\n" ++ usageOf flags

/-! ## Reading flags -/

/-- The truth value that a text writes. -/
def truth? (s : String) : Option Bool :=
  if s ∈ ["1", "t", "T", "TRUE", "true", "True"] then some true
  else if s ∈ ["0", "f", "F", "FALSE", "false", "False"] then some false
  else none

/-- Why flags cannot be read. -/
inductive FlagError where
  /-- The usage was asked for. -/
  | help
  | malformed (argument : String)
  | undefined (name : String)
  | noValue (name : String)
  /-- The value of a switch is no truth value. -/
  | notTrue (flag : Flag) (value : String)
deriving DecidableEq, Repr

/-- The wording of an error; help has none. -/
def FlagError.message : FlagError → String
  | help => ""
  | malformed argument => "bad flag syntax: " ++ argument ++ "\n"
  | undefined name => "flag provided but not defined: -" ++ name ++ "\n"
  | noValue name => "flag needs an argument: -" ++ name ++ "\n"
  | notTrue flag value =>
    let reason := match flag.kind with
      | .counter => "strconv.ParseBool: parsing " ++ Text.quoted value ++ ": invalid syntax"
      | _ => "parse error"
    "invalid boolean value " ++ Text.quoted value ++ " for -" ++ flag.name ++ ": " ++ reason ++ "\n"

/-- The settings made by flags, in order, and the arguments after the flags. -/
structure Parsed where
  settings : List (String × String) := []
  arguments : List String := []
deriving DecidableEq, Repr

namespace Parsed

/-- The value that was set last under one of some names. -/
def last? (p : Parsed) (names : List String) : Option String :=
  (p.settings.reverse.find? fun s => names.contains s.1).map (·.2)

/-- The truth value that was set last under a name. -/
def lastTruth? (p : Parsed) (name : String) : Option Bool := (p.last? [name]).bind truth?

/-- How often a name was set to true. -/
def count (p : Parsed) (name : String) : Nat :=
  (p.settings.filter fun s => s.1 == name && truth? s.2 == some true).length

/-- One more setting before the others. -/
def cons (name value : String) (p : Parsed) : Parsed :=
  { p with settings := (name, value) :: p.settings }

end Parsed

/-- What an argument is. -/
inductive Shape where
  /-- It is no flag. -/
  | argument
  /-- Two dashes alone, which end the flags. -/
  | stop
  | malformed
  /-- A flag with a name and perhaps a value. -/
  | flag (name : String) (value : Option String)
deriving DecidableEq, Repr

/-- Cuts a flag at its first equals sign. -/
def nameAndValue (s : List Char) : Shape :=
  let name := s.takeWhile (· != '=')
  match s.dropWhile (· != '=') with
  | [] => .flag (String.ofList name) none
  | _ :: value => .flag (String.ofList name) (some (String.ofList value))

/-- The shape of an argument. -/
def shape (argument : String) : Shape :=
  let body : List Char → Shape
    | [] => .malformed
    | c :: rest => if c = '-' ∨ c = '=' then .malformed else nameAndValue (c :: rest)
  match argument.toList with
  | '-' :: '-' :: [] => .stop
  | '-' :: '-' :: rest => body rest
  | '-' :: c :: rest => body (c :: rest)
  | _ => .argument

/-- Reads the flags of a command line. -/
def parseFlags (flags : List Flag) : List String → Except FlagError Parsed
  | [] => .ok {}
  | a :: rest =>
    match shape a with
    | .argument => .ok { arguments := a :: rest }
    | .stop => .ok { arguments := rest }
    | .malformed => .error (.malformed a)
    | .flag name value =>
      match flags.find? (·.name == name) with
      | none => .error (if name = "help" ∨ name = "h" then .help else .undefined name)
      | some flag =>
        match flag.kind, value, rest with
        | .text _, some value, rest => (parseFlags flags rest).map (Parsed.cons name value)
        | .text _, none, [] => .error (.noValue name)
        | .text _, none, value :: rest => (parseFlags flags rest).map (Parsed.cons name value)
        | _, none, rest => (parseFlags flags rest).map (Parsed.cons name "true")
        | _, some value, rest =>
          if (truth? value).isNone then .error (.notTrue flag value)
          else (parseFlags flags rest).map (Parsed.cons name value)

end Contour.Command
