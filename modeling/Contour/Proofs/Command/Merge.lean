import Contour.Proofs.Command.Grammar

/-!
# Options from flags and settings

The options of the main command come from the settings of a project and from flags, which count
first. An option has one or two spellings among the flags, and the last setting under any of them is
the one that counts (`get_override_of_last`); settings under other names do not change it
(`get_override_congr`).

A command can come to the same by keeping a variable for each option. Every setting writes its
value to the variable of its option (`Options.assign`), and the options whose flags are among the
names that were set are then copied from the variables (`Options.merge`). In which order the names
are gone through makes no difference (`merge_eq_override`).
-/

namespace Contour.Command

/-! ## The options one by one -/

/-- The options that flags set. -/
inductive Field where
  | inputType | outputType | outputFormat | programInput | programOutput | trace
deriving DecidableEq, Repr

/-- What an option holds. -/
abbrev Field.Value : Field → Type
  | .inputType => String
  | .outputType => String
  | .outputFormat => String
  | .programInput => String
  | .programOutput => String
  | .trace => Bool

/-- The names of the flags for an option. -/
def Field.spellings : Field → List String
  | .inputType => ["input-type", "i"]
  | .outputType => ["output-type", "o"]
  | .outputFormat => ["output-format", "f"]
  | .programInput => ["program-input", "I"]
  | .programOutput => ["program-output", "O"]
  | .trace => ["trace"]

/-- What a text means as the value of an option. -/
def Field.read? : (f : Field) → String → Option f.Value
  | .inputType, s => some s
  | .outputType, s => some s
  | .outputFormat, s => some s
  | .programInput, s => some s
  | .programOutput, s => some s
  | .trace, s => truth? s

/-- The value of an option. -/
def Options.get (o : Options) : (f : Field) → f.Value
  | .inputType => o.inputType
  | .outputType => o.outputType
  | .outputFormat => o.outputFormat
  | .programInput => o.programInput
  | .programOutput => o.programOutput
  | .trace => o.trace

/-- The options with another value of one of them. -/
def Options.set (o : Options) : (f : Field) → f.Value → Options
  | .inputType, v => { o with inputType := v }
  | .outputType, v => { o with outputType := v }
  | .outputFormat, v => { o with outputFormat := v }
  | .programInput, v => { o with programInput := v }
  | .programOutput, v => { o with programOutput := v }
  | .trace, v => { o with trace := v }

/-- There are no other options. -/
theorem Options.ext_get {o o' : Options} (h : ∀ f, o.get f = o'.get f) : o = o' := by
  obtain ⟨a, b, c, d, e, t⟩ := o
  obtain ⟨a', b', c', d', e', t'⟩ := o'
  obtain rfl : a = a' := h .inputType
  obtain rfl : b = b' := h .outputType
  obtain rfl : c = c' := h .outputFormat
  obtain rfl : d = d' := h .programInput
  obtain rfl : e = e' := h .programOutput
  obtain rfl : t = t' := h .trace
  rfl

@[simp] theorem Options.get_set_self (o : Options) (f : Field) (v : f.Value) :
    (o.set f v).get f = v := by
  cases f <;> rfl

theorem Options.get_set_of_ne (o : Options) {f g : Field} (h : f ≠ g) (v : f.Value) :
    (o.set f v).get g = o.get g := by
  cases f <;> cases g <;> first | rfl | exact absurd rfl h

/-- The option that a flag is for. -/
def Field.ofName? (name : String) : Option Field :=
  [.inputType, .outputType, .outputFormat, .programInput, .programOutput, .trace].find?
    fun f : Field => f.spellings.contains name

/-- No name is a spelling of two options. -/
theorem Field.ofName?_eq_some_iff {name : String} {f : Field} :
    Field.ofName? name = some f ↔ name ∈ f.spellings := by
  constructor
  · intro h
    simpa using List.find?_some h
  · intro h
    cases f <;> simp only [Field.spellings, List.mem_cons, List.not_mem_nil, or_false] at h
    case trace =>
      subst h
      decide
    all_goals
      rcases h with rfl | rfl <;> decide

/-! ## The last setting -/

namespace Parsed

variable {p p' : Parsed} {names : List String}

/-- The last setting under one of some names, with none of them behind it. -/
theorem last?_eq_some_iff {value : String} :
    p.last? names = some value ↔ ∃ before name after,
      p.settings = before ++ (name, value) :: after ∧ name ∈ names ∧
        ∀ s ∈ after, s.1 ∉ names := by
  rw [last?, Option.map_eq_some_iff]
  constructor
  · rintro ⟨⟨name, value⟩, hfind, rfl⟩
    obtain ⟨hname, after, before, hsplit, hafter⟩ := List.find?_eq_some_iff_append.mp hfind
    refine ⟨before.reverse, name, after.reverse, ?_, by simpa using hname, fun s hs => ?_⟩
    · rw [List.reverse_eq_iff.mp hsplit, List.reverse_append, List.reverse_cons, List.append_assoc,
        List.singleton_append]
    · simpa using hafter s (List.mem_reverse.mp hs)
  · rintro ⟨before, name, after, hsplit, hname, hafter⟩
    refine ⟨(name, value), List.find?_eq_some_iff_append.mpr ⟨by simpa using hname,
      after.reverse, before.reverse, ?_, fun s hs => ?_⟩, rfl⟩
    · rw [hsplit, List.reverse_append, List.reverse_cons, List.append_assoc, List.singleton_append]
    · simpa using hafter s (List.mem_reverse.mp hs)

theorem last?_eq_none_iff : p.last? names = none ↔ ∀ s ∈ p.settings, s.1 ∉ names := by
  simp [last?]

/-- The settings under other names do not matter. -/
theorem last?_congr (h : p'.settings.filter (fun s => names.contains s.1) =
    p.settings.filter fun s => names.contains s.1) : p'.last? names = p.last? names := by
  rw [last?, last?, ← List.head?_filter, ← List.head?_filter, List.filter_reverse,
    List.filter_reverse, h]

end Parsed

namespace Options

variable {o : Options} {p p' : Parsed} {f : Field}

/-- The value of an option is the last one that was set, or the one before. -/
theorem get_override (o : Options) (p : Parsed) (f : Field) :
    (o.override p).get f = ((p.last? f.spellings).bind f.read?).getD (o.get f) := by
  cases f with
  | trace => rfl
  | _ => exact congrArg (Option.getD · _) (Option.bind_fun_some _).symm

theorem get_override_of_last {before after : List (String × String)} {name value : String}
    (hsplit : p.settings = before ++ (name, value) :: after) (hname : name ∈ f.spellings)
    (hafter : ∀ s ∈ after, s.1 ∉ f.spellings) {v : f.Value} (hv : f.read? value = some v) :
    (o.override p).get f = v := by
  have hlast := Parsed.last?_eq_some_iff.mpr ⟨before, name, after, hsplit, hname, hafter⟩
  rw [get_override, hlast, Option.bind_some, hv, Option.getD_some]

theorem get_override_of_none (h : ∀ s ∈ p.settings, s.1 ∉ f.spellings) :
    (o.override p).get f = o.get f := by
  rw [get_override, Parsed.last?_eq_none_iff.mpr h, Option.bind_none, Option.getD_none]

/-- Settings of other options do not matter to an option. -/
theorem get_override_congr (h : p'.settings.filter (fun s => f.spellings.contains s.1) =
    p.settings.filter fun s => f.spellings.contains s.1) :
    (o.override p').get f = (o.override p).get f := by
  rw [get_override, get_override, Parsed.last?_congr h]

/-! ## Variables -/

/-- Writes the value of a setting to the variable of its option. -/
def assign (vars : Options) (s : String × String) : Options :=
  match Field.ofName? s.1 with
  | none => vars
  | some f => ((f.read? s.2).map (vars.set f)).getD vars

/-- Copies the option of a flag from the variables. -/
def copy (vars o : Options) (name : String) : Options :=
  match Field.ofName? name with
  | none => o
  | some f => o.set f (vars.get f)

/-- The options with those copied from the variables that the flags with some names are for. -/
def merge (o vars : Options) (names : List String) : Options := names.foldl (copy vars) o

theorem get_assign_of_not_mem {s : String × String} (h : s.1 ∉ f.spellings) (vars : Options) :
    (vars.assign s).get f = vars.get f := by
  unfold assign
  cases hname : Field.ofName? s.1 with
  | none => rfl
  | some g =>
    have hne : g ≠ f := by
      rintro rfl
      exact h (Field.ofName?_eq_some_iff.mp hname)
    show (((g.read? s.2).map (vars.set g)).getD vars).get f = vars.get f
    cases g.read? s.2 with
    | none => rfl
    | some v => exact get_set_of_ne vars hne v

theorem get_foldl_assign_of_not_mem {settings : List (String × String)}
    (h : ∀ s ∈ settings, s.1 ∉ f.spellings) (vars : Options) :
    (settings.foldl assign vars).get f = vars.get f := by
  induction settings generalizing vars with
  | nil => rfl
  | cons s settings ih =>
    rw [List.forall_mem_cons] at h
    rw [List.foldl_cons, ih h.2, get_assign_of_not_mem h.1]

/-- The variable of an option holds what was set last. -/
theorem get_foldl_assign {settings before after : List (String × String)} {name value : String}
    (hsplit : settings = before ++ (name, value) :: after) (hname : name ∈ f.spellings)
    (hafter : ∀ s ∈ after, s.1 ∉ f.spellings) {v : f.Value} (hv : f.read? value = some v)
    (vars : Options) : (settings.foldl assign vars).get f = v := by
  rw [hsplit, List.foldl_append, List.foldl_cons, get_foldl_assign_of_not_mem hafter, assign]
  simp only [Field.ofName?_eq_some_iff.mpr hname, hv, Option.map_some, Option.getD_some,
    get_set_self]

theorem get_copy (vars o : Options) (name : String) (f : Field) :
    (copy vars o name).get f = if name ∈ f.spellings then vars.get f else o.get f := by
  unfold copy
  by_cases hname : name ∈ f.spellings
  · rw [if_pos hname]
    simp only [Field.ofName?_eq_some_iff.mpr hname, get_set_self]
  · rw [if_neg hname]
    cases hfield : Field.ofName? name with
    | none => rfl
    | some g =>
      have hne : g ≠ f := by
        rintro rfl
        exact hname (Field.ofName?_eq_some_iff.mp hfield)
      exact get_set_of_ne o hne _

/-- An option is copied if one of its names is gone through, and otherwise left. -/
theorem get_merge (o vars : Options) (names : List String) (f : Field) :
    (o.merge vars names).get f =
      if ∃ name ∈ names, name ∈ f.spellings then vars.get f else o.get f := by
  unfold merge
  induction names generalizing o with
  | nil => simp
  | cons name names ih =>
    rw [List.foldl_cons, ih, get_copy]
    by_cases hlater : ∃ name ∈ names, name ∈ f.spellings
    · obtain ⟨later, hmem, hspells⟩ := id hlater
      rw [if_pos hlater, if_pos ⟨later, List.mem_cons_of_mem _ hmem, hspells⟩]
    · have hcons : (∃ later ∈ name :: names, later ∈ f.spellings) ↔ name ∈ f.spellings := by
        simp [hlater]
      rw [if_neg hlater, if_congr hcons rfl rfl]

/-- Copying the options that were set from the variables, in any order of the names, gives the
options that the last settings give. -/
theorem merge_eq_override (hread : ∀ f : Field, ∀ s ∈ p.settings, s.1 ∈ f.spellings →
      (f.read? s.2).isSome) (o vars : Options) {names : List String}
    (hnames : ∀ name, name ∈ names ↔ name ∈ p.settings.map Prod.fst) :
    o.merge (p.settings.foldl assign vars) names = o.override p := by
  apply ext_get
  intro f
  rw [get_merge]
  cases hlast : p.last? f.spellings with
  | some value =>
    obtain ⟨before, name, after, hsplit, hname, hafter⟩ := Parsed.last?_eq_some_iff.mp hlast
    have hmem : (name, value) ∈ p.settings := by simp [hsplit]
    obtain ⟨v, hv⟩ := Option.isSome_iff_exists.mp (hread f _ hmem hname)
    have hset : name ∈ names := (hnames name).mpr (List.mem_map.mpr ⟨_, hmem, rfl⟩)
    rw [if_pos ⟨name, hset, hname⟩, get_foldl_assign hsplit hname hafter hv,
      get_override_of_last hsplit hname hafter hv]
  | none =>
    have hnone := Parsed.last?_eq_none_iff.mp hlast
    have hset : ¬ ∃ name ∈ names, name ∈ f.spellings := by
      rintro ⟨name, hmem, hname⟩
      obtain ⟨s, hs, rfl⟩ := List.mem_map.mp ((hnames name).mp hmem)
      exact hnone s hs hname
    rw [if_neg hset, get_override_of_none hnone]

end Options

/-! ## Command lines -/

/-- What a flag writes can be read. -/
theorem Writes.read?_isSome {piece : List String} {s : String × String}
    (h : Writes mainFlags piece s) {f : Field} (hf : s.1 ∈ f.spellings) :
    (f.read? s.2).isSome := by
  cases f with
  | trace =>
    obtain ⟨name, value⟩ := s
    obtain rfl : name = "trace" := List.mem_singleton.mp hf
    have hswitch : ∀ flag, mainFlags.find? (·.name == "trace") = some flag →
        flag.kind = .switch false := by
      intro flag hflag
      have htrace : mainFlags.find? (·.name == "trace") =
          some ⟨"trace", .switch false, "Log every executed instruction"⟩ := by decide +kernel
      rw [htrace] at hflag
      cases hflag
      rfl
    cases h with
    | joined hdashes hname hflag htakes =>
      obtain ⟨initial, hkind⟩ | htruth := htakes
      · rw [hswitch _ hflag] at hkind
        cases hkind
      · exact htruth
    | apart hdashes hname hflag =>
      obtain ⟨flag, initial, hflag, hkind⟩ := hflag
      rw [hswitch _ hflag] at hkind
      cases hkind
    | alone => decide
  | _ => rfl

theorem read?_isSome_of_mem {pieces : List (List String)} {settings : List (String × String)}
    (h : List.Forall₂ (Writes mainFlags) pieces settings) (f : Field) :
    ∀ s ∈ settings, s.1 ∈ f.spellings → (f.read? s.2).isSome := by
  induction h with
  | nil => nofun
  | cons hwrites _ ih => exact List.forall_mem_cons.mpr ⟨hwrites.read?_isSome, ih⟩

/-- Flags count before settings, and the last one counts. A command line that is read is in one way
a sequence of flags and an end of flags. An option has the value of the last flag under any of its
names, be it empty, and the value in the settings if there is no such flag; flags under other names
do not matter to it. The same options come from variables that the flags have written, one after the
other, if the variables of the names that were set are copied, in any order. -/
theorem flags_override_settings (o : Options) {args : List String} {p : Parsed}
    (h : parseFlags mainFlags args = .ok p) :
    (∀ settings arguments,
      (∃ pieces tail, args = pieces.flatten ++ tail ∧
        List.Forall₂ (Writes mainFlags) pieces settings ∧ EndsFlags tail arguments) ↔
      settings = p.settings ∧ arguments = p.arguments) ∧
    (∀ (f : Field) (before after : List (String × String)) (name value : String),
      p.settings = before ++ (name, value) :: after → name ∈ f.spellings →
      (∀ s ∈ after, s.1 ∉ f.spellings) → f.read? value = some ((o.override p).get f)) ∧
    (∀ f : Field, (∀ s ∈ p.settings, s.1 ∉ f.spellings) → (o.override p).get f = o.get f) ∧
    (∀ (f : Field) (p' : Parsed), p'.settings.filter (fun s => f.spellings.contains s.1) =
      p.settings.filter (fun s => f.spellings.contains s.1) →
      (o.override p').get f = (o.override p).get f) ∧
    ∀ (vars : Options) (names : List String),
      (∀ name, name ∈ names ↔ name ∈ p.settings.map Prod.fst) →
      o.merge (p.settings.foldl Options.assign vars) names = o.override p := by
  obtain ⟨pieces, tail, -, hpieces, -⟩ := parseFlags_eq_ok_iff.mp h
  have hread := read?_isSome_of_mem hpieces
  refine ⟨fun settings arguments => ?_, ?_, fun f => Options.get_override_of_none,
    fun f p' => Options.get_override_congr,
    fun vars names => Options.merge_eq_override hread o vars⟩
  · have hway : parseFlags mainFlags args = .ok ⟨settings, arguments⟩ ↔
        settings = p.settings ∧ arguments = p.arguments := by
      rw [h, Except.ok.injEq, eq_comm, Parsed.mk.injEq]
    exact parseFlags_eq_ok_iff.symm.trans hway
  · intro f before after name value hsplit hname hafter
    have hmem : (name, value) ∈ p.settings := by simp [hsplit]
    obtain ⟨v, hv⟩ := Option.isSome_iff_exists.mp (hread f _ hmem hname)
    rw [hv, Options.get_override_of_last hsplit hname hafter hv]

/-- Both names of an option, the second time with an empty value, a switch that is turned off and on
again, and a flag behind the end of the flags. -/
theorem flags_override_settings_of_mixture :
    let o : Options := ⟨"a", "e", "number", "", "out.txt", false⟩
    let args := ["-i", "d", "--input-type=", "-trace=F", "-v", "-trace", "--", "-o", "a"]
    let p : Parsed := ⟨[("i", "d"), ("input-type", ""), ("trace", "F"), ("v", "true"),
      ("trace", "true")], ["-o", "a"]⟩
    parseFlags mainFlags args = .ok p ∧
      o.override p = ⟨"", "e", "number", "", "out.txt", true⟩ := by
  intro o args p
  have hparse : parseFlags mainFlags args = .ok p := by decide +kernel
  obtain ⟨-, hlast, hnone, -, -⟩ := flags_override_settings o hparse
  have hinput := hlast .inputType [("i", "d")] [("trace", "F"), ("v", "true"), ("trace", "true")]
    "input-type" "" rfl (by decide) (by decide)
  have htrace := hlast .trace [("i", "d"), ("input-type", ""), ("trace", "F"), ("v", "true")] []
    "trace" "true" rfl (by decide) (by decide)
  refine ⟨hparse, Options.ext_get fun f => ?_⟩
  cases f with
  | inputType => exact (Option.some.inj hinput).symm
  | trace => exact (Option.some.inj htrace).symm
  | outputType => exact hnone .outputType (by decide)
  | outputFormat => exact hnone .outputFormat (by decide)
  | programInput => exact hnone .programInput (by decide)
  | programOutput => exact hnone .programOutput (by decide)

end Contour.Command
