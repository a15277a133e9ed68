import Contour.Proofs.Command.Flags
import Contour.Proofs.Text.Blank

/-!
# The grammar of flags

A command line is a sequence of flags and what follows them. A flag is an argument of a dash or two,
a name, and a value after an equals sign; or it takes the argument behind it for its value, if it is
one for a text; or it stands alone, if it is a switch (`Writes`). The flags end with the command
line, with two dashes alone, or with the first argument that is no flag (`EndsFlags`).

`parseFlags_eq_ok_iff`: exactly the command lines of this grammar are read, and the settings are
those that their flags write, in order.
-/

namespace Contour.Command

/-! ## One argument -/

/-- What can be the name of a flag. -/
structure IsFlagName (name : String) : Prop where
  ne_empty : name ≠ ""
  head : name.toList.head? ≠ some '-'
  equals : '=' ∉ name.toList

/-- A name, and a value after an equals sign if there is one. -/
def flagText (name : String) : Option String → String
  | none => name
  | some value => name ++ "=" ++ value

/-- What is written after the dashes of a flag. -/
def flagBody : List Char → Shape
  | [] => .malformed
  | c :: rest => if c = '-' ∨ c = '=' then .malformed else nameAndValue (c :: rest)

theorem shape_eq (a : String) :
    shape a = match a.toList with
      | '-' :: '-' :: [] => .stop
      | '-' :: '-' :: rest => flagBody rest
      | '-' :: c :: rest => flagBody (c :: rest)
      | _ => .argument := rfl

/-- The part of a flag after its name. -/
def valueText : Option String → List Char
  | none => []
  | some value => '=' :: value.toList

theorem toList_flagText (name : String) (value? : Option String) :
    (flagText name value?).toList = name.toList ++ valueText value? := by
  cases value? with
  | none => exact (List.append_nil _).symm
  | some value => simp [flagText, valueText, String.toList_append]

theorem nameAndValue_eq_flag_iff {s : List Char} {name : String} {value? : Option String} :
    nameAndValue s = .flag name value? ↔
      '=' ∉ name.toList ∧ s = (flagText name value?).toList := by
  rw [toList_flagText]
  unfold nameAndValue
  constructor
  · intro h
    have hsplit := List.takeWhile_append_dropWhile (p := (· != '=')) (l := s)
    have hname : '=' ∉ s.takeWhile (· != '=') := fun hmem =>
      absurd (List.mem_takeWhile_imp hmem) (by decide)
    cases hrest : s.dropWhile (· != '=') with
    | nil =>
      simp only [hrest] at h
      cases h
      rw [hrest] at hsplit
      exact ⟨by rwa [String.toList_ofList], by rw [String.toList_ofList]; exact hsplit.symm⟩
    | cons c value =>
      have hc : c = '=' := by
        have hhead := List.head?_dropWhile_not (· != '=') s
        rw [hrest] at hhead
        simpa using hhead
      simp only [hrest] at h
      cases h
      rw [hrest, hc] at hsplit
      refine ⟨by rwa [String.toList_ofList], ?_⟩
      rw [valueText, String.toList_ofList, String.toList_ofList]
      exact hsplit.symm
  · rintro ⟨hname, rfl⟩
    have hparts : (name.toList ++ valueText value?).takeWhile (· != '=') = name.toList ∧
        (name.toList ++ valueText value?).dropWhile (· != '=') = valueText value? := by
      apply Text.takeWhile_dropWhile_append
      · intro c hc
        have hne : c ≠ '=' := fun h => hname (h ▸ hc)
        simpa using hne
      · intro c hc
        cases value? with
        | none => cases hc
        | some value =>
          cases hc
          rfl
    simp only [hparts]
    cases value? with
    | none => simp [valueText]
    | some value => simp [valueText]

/-- A flag starts with its name. -/
theorem IsFlagName.toList_flagText {name : String} (h : IsFlagName name) (value? : Option String) :
    ∃ c rest, (flagText name value?).toList = c :: rest ∧ c ≠ '-' ∧ c ≠ '=' := by
  obtain ⟨c, rest, hname⟩ := List.exists_cons_of_ne_nil (mt String.toList_eq_nil_iff.mp h.ne_empty)
  refine ⟨c, rest ++ valueText value?, ?_, ?_, ?_⟩
  · rw [Command.toList_flagText, hname, List.cons_append]
  · rintro rfl
    exact h.head (by rw [hname, List.head?_cons])
  · rintro rfl
    exact h.equals (by rw [hname]; exact List.mem_cons_self)

theorem flagBody_eq_flag_iff {s : List Char} {name : String} {value? : Option String} :
    flagBody s = .flag name value? ↔ IsFlagName name ∧ s = (flagText name value?).toList := by
  constructor
  · intro h
    cases s with
    | nil => cases h
    | cons c rest =>
      rw [flagBody] at h
      by_cases hc : c = '-' ∨ c = '='
      · rw [if_pos hc] at h
        cases h
      · rw [if_neg hc, nameAndValue_eq_flag_iff, toList_flagText] at h
        obtain ⟨hequals, htext⟩ := h
        rw [toList_flagText]
        rw [not_or] at hc
        cases hname : name.toList with
        | nil =>
          -- The first character would be the equals sign.
          rw [hname] at htext
          cases value? with
          | none => cases htext
          | some value =>
            cases htext
            exact absurd rfl hc.2
        | cons d more =>
          rw [hname] at htext
          cases htext
          refine ⟨⟨?_, ?_, hequals⟩, rfl⟩
          · rintro rfl
            cases hname
          · rw [hname, List.head?_cons]
            exact fun hd => hc.1 (Option.some.inj hd)
  · rintro ⟨hname, rfl⟩
    obtain ⟨c, rest, htext, hdash, hequals⟩ := hname.toList_flagText value?
    rw [htext, flagBody, if_neg (not_or.mpr ⟨hdash, hequals⟩), nameAndValue_eq_flag_iff]
    exact ⟨hname.equals, htext.symm⟩

theorem flagBody_ne (s : List Char) : flagBody s ≠ .stop ∧ flagBody s ≠ .argument := by
  cases s with
  | nil => simp [flagBody]
  | cons c rest =>
    rw [flagBody]
    split
    · simp
    · unfold nameAndValue
      dsimp only
      split <;> simp

/-- A flag has one dash or two. -/
theorem shape_eq_flag_iff {a name : String} {value? : Option String} :
    shape a = .flag name value? ↔
      IsFlagName name ∧ ∃ dashes ∈ ["-", "--"], a = dashes ++ flagText name value? := by
  have hone : a = "-" ++ flagText name value? ↔
      a.toList = '-' :: (flagText name value?).toList := by
    rw [← String.toList_inj, String.toList_append]
    rfl
  have htwo : a = "--" ++ flagText name value? ↔
      a.toList = '-' :: '-' :: (flagText name value?).toList := by
    rw [← String.toList_inj, String.toList_append]
    rfl
  simp only [List.mem_cons, List.not_mem_nil, or_false, exists_eq_or_imp, exists_eq_left, hone,
    htwo]
  rw [shape_eq]
  generalize a.toList = s
  split
  · refine ⟨nofun, ?_⟩
    rintro ⟨hname, h⟩
    obtain ⟨c, rest, htext, hdash, -⟩ := hname.toList_flagText value?
    simp [htext, hdash.symm] at h
  · rename_i rest hrest
    rw [flagBody_eq_flag_iff]
    refine and_congr_right fun hname => ?_
    obtain ⟨c, more, htext, hdash, -⟩ := hname.toList_flagText value?
    simp [htext, hdash.symm]
  · rename_i c rest hstop hdashes
    rw [flagBody_eq_flag_iff]
    refine and_congr_right fun hname => ?_
    have hc : c ≠ '-' := fun h => by
      cases rest with
      | nil => exact hstop h rfl
      | cons d rest => exact hdashes h
    simp [hc]
  · rename_i hstop hdashes hdash
    refine ⟨nofun, ?_⟩
    rintro ⟨hname, h⟩
    obtain ⟨c, rest, htext, -, -⟩ := hname.toList_flagText value?
    rw [htext] at h
    rcases h with h | h
    · exact absurd h (hdash c rest)
    · exact absurd h (hdash '-' (c :: rest))

theorem shape_eq_stop_iff {a : String} : shape a = .stop ↔ a = "--" := by
  have hstop : a = "--" ↔ a.toList = ['-', '-'] := by
    rw [← String.toList_inj]
    rfl
  rw [shape_eq, hstop]
  split
  · rename_i h
    exact ⟨fun _ => h, fun _ => rfl⟩
  · rename_i rest hrest h
    refine ⟨fun hbody => absurd hbody (flagBody_ne rest).1, fun hlist => ?_⟩
    rw [hlist] at h
    cases h
    exact absurd rfl hrest
  · rename_i c rest hstop hdashes h
    refine ⟨fun hbody => absurd hbody (flagBody_ne _).1, fun hlist => ?_⟩
    rw [hlist] at h
    cases h
    exact absurd rfl (hstop rfl)
  · rename_i hstop hdashes hdash
    exact ⟨nofun, fun hlist => absurd hlist hstop⟩

/-- What is no flag: a dash alone, and what does not start with a dash. -/
def IsPlainArgument (a : String) : Prop := a = "-" ∨ a.toList.head? ≠ some '-'

theorem shape_eq_argument_iff {a : String} : shape a = .argument ↔ IsPlainArgument a := by
  have hone : a = "-" ↔ a.toList = ['-'] := by
    rw [← String.toList_inj]
    rfl
  rw [shape_eq, IsPlainArgument, hone]
  generalize a.toList = s
  split
  · simp
  · rename_i rest hrest
    simp [(flagBody_ne rest).2]
  · rename_i c rest hstop hdashes
    simp [(flagBody_ne (c :: rest)).2]
  · rename_i hstop hdashes hdash
    refine ⟨fun _ => ?_, fun _ => rfl⟩
    cases s with
    | nil => exact .inr (by simp)
    | cons c rest =>
      by_cases hc : c = '-'
      · subst hc
        cases rest with
        | nil => exact .inl rfl
        | cons d rest => exact absurd rfl (hdash d rest)
      · exact .inr (by simpa using hc)

/-! ## Command lines -/

/-- Whether a flag takes a value. -/
def Flag.Takes (flag : Flag) (value : String) : Prop :=
  (∃ initial, flag.kind = .text initial) ∨ (truth? value).isSome

/-- How a setting is written: a name and a value. -/
inductive Writes (flags : List Flag) : List String → String × String → Prop where
  /-- The value is behind an equals sign. -/
  | joined {dashes name value : String} {flag : Flag} (hdashes : dashes ∈ ["-", "--"])
      (hname : IsFlagName name) (hflag : flags.find? (·.name == name) = some flag)
      (htakes : flag.Takes value) : Writes flags [dashes ++ (name ++ "=" ++ value)] (name, value)
  /-- The value is the next argument. -/
  | apart {dashes name value : String} (hdashes : dashes ∈ ["-", "--"]) (hname : IsFlagName name)
      (hflag : TakesText flags name) : Writes flags [dashes ++ name, value] (name, value)
  /-- A switch alone is set to true. -/
  | alone {dashes name : String} {flag : Flag} (hdashes : dashes ∈ ["-", "--"])
      (hname : IsFlagName name) (hflag : flags.find? (·.name == name) = some flag)
      (hkind : ∀ initial, flag.kind ≠ .text initial) : Writes flags [dashes ++ name] (name, "true")

/-- How flags end, and what is left then. -/
inductive EndsFlags : List String → List String → Prop where
  /-- The command line ends. -/
  | nil : EndsFlags [] []
  /-- There are two dashes alone. -/
  | stop (rest : List String) : EndsFlags ("--" :: rest) rest
  /-- There is an argument that is no flag. -/
  | argument {a : String} (h : IsPlainArgument a) (rest : List String) :
      EndsFlags (a :: rest) (a :: rest)

variable {flags : List Flag}

theorem parseFlags_of_endsFlags {tail arguments : List String} (h : EndsFlags tail arguments) :
    parseFlags flags tail = .ok { arguments } := by
  cases h with
  | nil => rfl
  | stop rest => rw [parseFlags, shape_eq_stop_iff.mpr rfl]
  | argument h rest => exact parseFlags_argument (shape_eq_argument_iff.mpr h) flags rest

/-- A switch is set to true if it has no value, and its value is a truth value. -/
theorem parseFlags_switch {a name : String} {value? : Option String} {flag : Flag}
    (hshape : shape a = .flag name value?) (hflag : flags.find? (·.name == name) = some flag)
    (hkind : ∀ initial, flag.kind ≠ .text initial) (rest : List String) :
    parseFlags flags (a :: rest) =
      if (truth? (value?.getD "true")).isSome then
        (parseFlags flags rest).map (Parsed.cons name (value?.getD "true"))
      else .error (.notTrue flag (value?.getD "true")) := by
  have htrue : (truth? "true").isSome = true := by decide
  rw [parseFlags, hshape]
  simp only [hflag]
  cases hflagKind : flag.kind with
  | text initial => exact absurd hflagKind (hkind initial)
  | switch initial =>
    cases value? with
    | none => simp [htrue]
    | some value => cases htruth : truth? value <;> simp [htruth]
  | counter =>
    cases value? with
    | none => simp [htrue]
    | some value => cases htruth : truth? value <;> simp [htruth]

/-- A flag at the start makes the first setting. -/
theorem parseFlags_append_of_writes {piece : List String} {s : String × String}
    (h : Writes flags piece s) (rest : List String) :
    parseFlags flags (piece ++ rest) = (parseFlags flags rest).map (Parsed.cons s.1 s.2) := by
  cases h with
  | @joined dashes name value flag hdashes hname hflag htakes =>
    have hshape : shape (dashes ++ (name ++ "=" ++ value)) = .flag name (some value) :=
      shape_eq_flag_iff.mpr ⟨hname, dashes, hdashes, rfl⟩
    rw [List.singleton_append]
    by_cases htext : ∃ initial, flag.kind = .text initial
    · obtain ⟨initial, hkind⟩ := htext
      rw [parseFlags, hshape]
      simp only [hflag, hkind]
    · have htruth : (truth? value).isSome = true := htakes.resolve_left htext
      rw [parseFlags_switch hshape hflag (not_exists.mp htext) rest]
      exact if_pos htruth
  | @apart dashes name value hdashes hname hflag =>
    have hshape : shape (dashes ++ name) = .flag name none :=
      shape_eq_flag_iff.mpr ⟨hname, dashes, hdashes, rfl⟩
    exact parseFlags_text hshape hflag rest
  | @alone dashes name flag hdashes hname hflag hkind =>
    have hshape : shape (dashes ++ name) = .flag name none :=
      shape_eq_flag_iff.mpr ⟨hname, dashes, hdashes, rfl⟩
    exact parseFlags_switch hshape hflag hkind rest

theorem exists_of_map_cons {r : Except FlagError Parsed} {name value : String} {p : Parsed}
    (h : r.map (Parsed.cons name value) = .ok p) : ∃ p', r = .ok p' ∧ p = p'.cons name value := by
  cases r with
  | error e => cases h
  | ok p' =>
    cases h
    exact ⟨p', rfl, rfl⟩

/-- What is read starts with a flag, or the flags are at their end. -/
theorem parseFlags_cases {args : List String} {p : Parsed} (h : parseFlags flags args = .ok p) :
    (p.settings = [] ∧ EndsFlags args p.arguments) ∨
      ∃ piece s rest p', args = piece ++ rest ∧ piece ≠ [] ∧ Writes flags piece s ∧
        parseFlags flags rest = .ok p' ∧ p = p'.cons s.1 s.2 := by
  cases args with
  | nil =>
    cases h
    exact .inl ⟨rfl, .nil⟩
  | cons a rest =>
    cases hshape : shape a with
    | argument =>
      rw [parseFlags, hshape] at h
      cases h
      exact .inl ⟨rfl, .argument (shape_eq_argument_iff.mp hshape) rest⟩
    | stop =>
      rw [parseFlags, hshape] at h
      cases h
      obtain rfl := shape_eq_stop_iff.mp hshape
      exact .inl ⟨rfl, .stop rest⟩
    | malformed =>
      rw [parseFlags, hshape] at h
      cases h
    | flag name value? =>
      obtain ⟨hname, dashes, hdashes, rfl⟩ := shape_eq_flag_iff.mp hshape
      cases hflag : flags.find? (·.name == name) with
      | none => simp [parseFlags, hshape, hflag] at h
      | some flag =>
        right
        by_cases htext : ∃ initial, flag.kind = .text initial
        · -- A flag for a text takes any value, be it the next argument.
          obtain ⟨initial, hkind⟩ := id htext
          simp only [parseFlags, hshape, hflag, hkind] at h
          cases value? with
          | some value =>
            obtain ⟨p', hrest, rfl⟩ := exists_of_map_cons h
            exact ⟨_, _, rest, p', rfl, List.cons_ne_nil _ _,
              .joined hdashes hname hflag (.inl htext), hrest, rfl⟩
          | none =>
            cases rest with
            | nil => cases h
            | cons value rest =>
              obtain ⟨p', hrest, rfl⟩ := exists_of_map_cons h
              exact ⟨_, _, rest, p', rfl, List.cons_ne_nil _ _,
                .apart hdashes hname ⟨flag, initial, hflag, hkind⟩, hrest, rfl⟩
        · have hkind := not_exists.mp htext
          rw [parseFlags_switch hshape hflag hkind rest] at h
          by_cases htruth : (truth? (value?.getD "true")).isSome = true
          · rw [if_pos htruth] at h
            obtain ⟨p', hrest, rfl⟩ := exists_of_map_cons h
            cases value? with
            | some value =>
              exact ⟨_, _, rest, p', rfl, List.cons_ne_nil _ _,
                .joined hdashes hname hflag (.inr htruth), hrest, rfl⟩
            | none =>
              exact ⟨_, _, rest, p', rfl, List.cons_ne_nil _ _,
                .alone hdashes hname hflag hkind, hrest, rfl⟩
          · rw [if_neg htruth] at h
            cases h

/-- A command line is read if it is a sequence of flags and an end of flags, and the settings are
those that the flags write. -/
theorem parseFlags_eq_ok_iff {args : List String} {p : Parsed} :
    parseFlags flags args = .ok p ↔
      ∃ pieces tail, args = pieces.flatten ++ tail ∧
        List.Forall₂ (Writes flags) pieces p.settings ∧ EndsFlags tail p.arguments := by
  constructor
  · intro h
    -- Each flag leaves a shorter command line.
    induction hn : args.length using Nat.strong_induction_on generalizing args p with
    | _ n ih =>
      obtain ⟨hsettings, hends⟩ | ⟨piece, s, rest, p', rfl, hne, hwrites, hrest, rfl⟩ :=
        parseFlags_cases h
      · exact ⟨[], args, rfl, by rw [hsettings]; exact .nil, hends⟩
      · have hshorter : rest.length < n := by
          have hpos := List.length_pos_of_ne_nil hne
          rw [← hn, List.length_append]
          omega
        obtain ⟨pieces, tail, rfl, hpieces, hends⟩ := ih _ hshorter hrest rfl
        refine ⟨piece :: pieces, tail, ?_, .cons hwrites hpieces, hends⟩
        rw [List.flatten_cons, List.append_assoc]
  · rintro ⟨pieces, tail, rfl, hpieces, hends⟩
    obtain ⟨settings, arguments⟩ := p
    dsimp only at hpieces hends
    induction hpieces with
    | nil => exact parseFlags_of_endsFlags hends
    | @cons piece s pieces settings hwrites _ ih =>
      rw [List.flatten_cons, List.append_assoc, parseFlags_append_of_writes hwrites, ih]
      rfl

end Contour.Command
