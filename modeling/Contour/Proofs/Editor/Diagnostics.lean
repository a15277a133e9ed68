import Contour.Editor.Analysis
import Contour.Proofs.Assembly.Parts
import Contour.Proofs.Canonical
import Contour.Proofs.Machine.Steps

/-!
# Diagnostics and the assembler

What an editor shows about an assembly text is what the assembler makes of it.

* `assemblyDiagnostics_agree`: all of it in one statement;
* `find?_error_lineDiagnostics`: the first error is the mnemonic that the assembler refuses, on the
  line that it names;
* `runFrom_ne_unknown`: without such a mnemonic no run meets one;
* `mem_lineDiagnostics`, `lineFlaw?_eq_skipped_iff`, `lineFlaw?_eq_idle_iff`: which lines have a
  warning;
* `assemble_filter_isSkipped`, `assemble_map_withoutIdle`: what is warned about makes no difference
  to the deltas.
-/

namespace Contour

/-! ## Runs of known instructions -/

namespace Machine

variable {σ : Type}

/-- A program of known instructions does not meet an unknown one, however long it is watched. -/
theorem runFrom_ne_unknown {program : List Instruction} (h : ∀ i ∈ program, i.opcode?.isSome)
    (channel : Channel σ) (limit fuel steps : Nat) (m : Machine σ) (mnemonic : String)
    (line : Nat) :
    (runFrom channel program.toArray limit fuel steps m).ending ≠
      .failed (.unknown mnemonic line) := by
  intro hfailed
  rcases fault_of_runFrom hfailed with ⟨-, hlimit⟩ | ⟨i, hi, m, m', hstep⟩
  · cases hlimit
  · rcases fault_of_step hstep with ⟨-, hnone⟩ | ⟨op, hdivision⟩ | ⟨e, hchannel⟩
    · have hknown := h i hi
      simp [hnone] at hknown
    · cases hdivision
    · cases hchannel

end Machine

/-! ## Words without their places -/

namespace Stream

/-- Assembling depends on the words of the instructions only, but for the line of an error. -/
theorem assemble_mapError_of_sameWords {is js : List Instruction}
    (h : List.Forall₂ SameWords is js) :
    (assemble is).mapError UnknownMnemonic.mnemonic =
      (assemble js).mapError UnknownMnemonic.mnemonic := by
  induction h with
  | nil => rfl
  | @cons i j is js hij _ ih =>
    rw [assemble, assemble]
    cases hop : i.opcode? with
    | none =>
      have hop' : j.opcode? = none := hij.opcode?_eq ▸ hop
      simp only [encode, hop, hop', hij.mnemonic]
      rfl
    | some op =>
      have hi : i.opcode?.isSome := by rw [hop]; rfl
      rw [encode_eq_blockOf hi, encode_eq_blockOf (hij.opcode?_eq ▸ hi), hij.blockOf_eq]
      revert ih
      cases assemble is <;> cases assemble js <;>
        simp [Except.mapError, bind, Except.bind, pure, Except.pure]

end Stream

namespace Editor

open Assembly (codeOf ofLine? ofLinesFrom ofLines withoutArgument)
open Contour.Stream (SameWords UnknownMnemonic assemble)

/-! ## Messages -/

/-- The message about a mnemonic that is not in the table. -/
def unknownText (mnemonic : String) : String := "unknown instruction \"" ++ mnemonic ++ "\""

theorem unknownText_eq (mnemonic : String) :
    unknownText mnemonic = "unknown instruction \"" ++ mnemonic ++ "\"" := rfl

/-- The message about a line that is no instruction. -/
def skippedMessage : String := "not an instruction; the line is skipped"

/-- The message about an argument that an operation does not take. -/
def idleMessage (op : Opcode) (n : Int) : String :=
  op.name ++ " takes no argument; " ++ Decimal.text n ++ " is ignored"

/-- Letters are quoted as they are. -/
theorem quotedChar_of_isMnemonicChar {c : Char} (h : Assembly.isMnemonicChar c = true) :
    Text.quotedChar c = [c] := by
  have hc := Assembly.toNat_of_isMnemonicChar h
  have hquote : ¬ (c == '"' || c == '\\') = true := by
    simp only [Bool.or_eq_true, beq_iff_eq]
    rintro (rfl | rfl)
    · exact absurd hc (by decide)
    · exact absurd hc (by decide)
  have hescape : Text.escapeLetter? c = none := by
    unfold Text.escapeLetter?
    split <;> first | omega | rfl
  have hprintable : Text.isPrintable c = true := by
    simp only [Text.isPrintable]
    rw [if_pos (by omega)]
    simp
    omega
  rw [Text.quotedChar, if_neg hquote, hescape]
  simp [hprintable]

theorem quoted_of_letters {s : String} (h : ∀ c ∈ s.toList, Assembly.isMnemonicChar c = true) :
    Text.quoted s = "\"" ++ s ++ "\"" := by
  have hletters : s.toList.flatMap Text.quotedChar = s.toList := by
    rw [List.flatMap_congr fun c hc => quotedChar_of_isMnemonicChar (h c hc)]
    simp
  rw [Text.quoted, hletters]
  apply String.toList_inj.mp
  simp

theorem idleMessage_ne_skippedMessage (op : Opcode) (n : Int) :
    idleMessage op n ≠ skippedMessage := by
  intro h
  have hhead : skippedMessage.toList.head? = some 'n' := by decide +kernel
  -- no mnemonic starts with the first letter of the other message
  obtain ⟨c, hc, hne⟩ : ∃ c, op.name.toList.head? = some c ∧ c ≠ 'n' := by
    cases op <;> exact ⟨_, rfl, by decide⟩
  have hidle : (idleMessage op n).toList.head? = some c := by simp [idleMessage, hc]
  rw [h, hhead] at hidle
  exact hne (Option.some.inj hidle).symm

/-! ## One line -/

/-- Whether a line says something and is no instruction. -/
def isSkipped (line : List Char) : Bool := !(codeOf line).isEmpty && (ofLine? line).isNone

/-- Whether a line gives an argument to an operation that takes none. -/
def hasIdleArgument (line : List Char) : Bool :=
  match ofLine? line with
  | none => false
  | some i => i.argument.isSome && i.opcode?.any (!·.takesArgument)

theorem codeOf_ne_nil {line : List Char} {i : Instruction} (h : ofLine? line = some i) :
    codeOf line ≠ [] := by
  intro hnil
  rw [ofLine?, hnil] at h
  cases h

/-- What is wrong with a line, by what is on it. -/
theorem lineFlaw?_of_none {line : List Char} (h : ofLine? line = none) :
    lineFlaw? line = if isSkipped line then some (.warning, skippedMessage) else none := by
  by_cases hcode : codeOf line = []
  · simp [lineFlaw?, isSkipped, hcode]
  · simp [lineFlaw?, isSkipped, hcode, h, skippedMessage]

theorem lineFlaw?_of_unknown {line : List Char} {i : Instruction} (h : ofLine? line = some i)
    (hop : i.opcode? = none) : lineFlaw? line = some (.error, unknownText i.mnemonic) := by
  rw [lineFlaw?, if_neg (codeOf_ne_nil h), h]
  simp only [hop]
  rw [quoted_of_letters (Assembly.isSpelled_of_ofLine? h).letters, unknownText_eq]
  have htext : "unknown instruction " ++ "\"" = "unknown instruction \"" := by decide +kernel
  simp only [← htext, String.append_assoc]

theorem lineFlaw?_of_known {line : List Char} {i : Instruction} {op : Opcode}
    (h : ofLine? line = some i) (hop : i.opcode? = some op) :
    lineFlaw? line =
      if op.takesArgument then none else i.argument.map fun n => (.warning, idleMessage op n) := by
  rw [lineFlaw?, if_neg (codeOf_ne_nil h), h]
  cases harg : i.argument <;> simp [hop, harg, idleMessage]

theorem hasIdleArgument_of_known {line : List Char} {i : Instruction} {op : Opcode}
    (h : ofLine? line = some i) (hop : i.opcode? = some op) :
    hasIdleArgument line = (i.argument.isSome && !op.takesArgument) := by
  simp [hasIdleArgument, h, hop]

theorem lineFlaw?_eq_skipped_iff {line : List Char} :
    lineFlaw? line = some (.warning, skippedMessage) ↔ isSkipped line = true := by
  cases hline : ofLine? line with
  | none => simp [lineFlaw?_of_none hline]
  | some i =>
    have hskipped : isSkipped line = false := by simp [isSkipped, hline]
    rw [hskipped]
    cases hop : i.opcode? with
    | none => simp [lineFlaw?_of_unknown hline hop]
    | some op =>
      rw [lineFlaw?_of_known hline hop]
      cases i.argument with
      | none => simp
      | some n => simp [idleMessage_ne_skippedMessage]

theorem lineFlaw?_eq_idle_iff {line : List Char} :
    (∃ op n, lineFlaw? line = some (.warning, idleMessage op n)) ↔ hasIdleArgument line = true := by
  cases hline : ofLine? line with
  | none =>
    have hidle : hasIdleArgument line = false := by simp [hasIdleArgument, hline]
    simp only [lineFlaw?_of_none hline, hidle]
    constructor
    · rintro ⟨op, n, h⟩
      split at h
      · simp only [Option.some.injEq, Prod.mk.injEq, true_and] at h
        exact absurd h.symm (idleMessage_ne_skippedMessage op n)
      · cases h
    · rintro ⟨⟩
  | some i =>
    cases hop : i.opcode? with
    | none => simp [lineFlaw?_of_unknown hline hop, hasIdleArgument, hline, hop]
    | some op =>
      rw [hasIdleArgument_of_known hline hop, lineFlaw?_of_known hline hop]
      cases htakes : op.takesArgument with
      | true => simp
      | false =>
        cases i.argument with
        | none => simp
        | some n => simp

/-! ## All lines -/

theorem mem_lineDiagnostics_cons {n : Nat} {line : List Char} {ls : List (List Char)}
    {d : Diagnostic} :
    d ∈ lineDiagnostics n (line :: ls) ↔
      (∃ severity message, lineFlaw? line = some (severity, message) ∧
        d = Diagnostic.ofLine n line severity message) ∨ d ∈ lineDiagnostics (n + 1) ls := by
  rw [lineDiagnostics]
  cases lineFlaw? line with
  | none => simp
  | some flaw =>
    obtain ⟨severity, message⟩ := flaw
    simp [List.mem_cons, and_assoc]

/-- The diagnostics are those of the lines, each with the number of its line. -/
theorem mem_lineDiagnostics {n : Nat} {ls : List (List Char)} {d : Diagnostic} :
    d ∈ lineDiagnostics n ls ↔ ∃ k line severity message, ls[k]? = some line ∧
      lineFlaw? line = some (severity, message) ∧
      d = Diagnostic.ofLine (n + k) line severity message := by
  induction ls generalizing n with
  | nil => simp [lineDiagnostics]
  | cons line ls ih =>
    rw [mem_lineDiagnostics_cons, ih]
    constructor
    · rintro (⟨severity, message, hflaw, rfl⟩ | ⟨k, line', severity, message, hline, hflaw, rfl⟩)
      · exact ⟨0, line, severity, message, rfl, hflaw, rfl⟩
      · exact ⟨k + 1, line', severity, message, hline, hflaw,
          by rw [Nat.add_right_comm, Nat.add_assoc]⟩
    · rintro ⟨k, line', severity, message, hline, hflaw, rfl⟩
      cases k with
      | zero =>
        cases hline
        exact .inl ⟨severity, message, hflaw, rfl⟩
      | succ k =>
        exact .inr ⟨k, line', severity, message, hline, hflaw,
          by rw [Nat.add_right_comm, Nat.add_assoc]⟩

/-- The error of a result. -/
def errorOf {ε α : Type} : Except ε α → Option ε
  | .ok _ => none
  | .error e => some e

theorem errorOf_assemble_of_unknown {i : Instruction} (h : i.opcode? = none)
    (is : List Instruction) : errorOf (assemble (i :: is)) = some ⟨i.mnemonic, i.line⟩ := by
  simp only [assemble, Stream.encode, h]
  rfl

theorem errorOf_assemble_of_known {i : Instruction} (h : i.opcode?.isSome)
    (is : List Instruction) : errorOf (assemble (i :: is)) = errorOf (assemble is) := by
  rw [assemble, Stream.encode_eq_blockOf h]
  cases assemble is <;> rfl

/-- The first error that is shown is the one that the assembler stops at: on the same line, and
about the same mnemonic. -/
theorem find?_error_lineDiagnostics (n : Nat) (ls : List (List Char)) :
    ((lineDiagnostics n ls).find? (·.severity == .error)).map (fun d => (d.line + 1, d.message)) =
      (errorOf (assemble (ofLinesFrom (n + 1) ls))).map fun e =>
        (e.line, unknownText e.mnemonic) := by
  induction ls generalizing n with
  | nil => rfl
  | cons line ls ih =>
    rw [lineDiagnostics, ofLinesFrom]
    cases hline : ofLine? line with
    | none =>
      rw [lineFlaw?_of_none hline]
      by_cases hskipped : isSkipped line = true
      · simpa [hskipped, Diagnostic.ofLine] using ih (n + 1)
      · simpa [hskipped] using ih (n + 1)
    | some i =>
      cases hop : i.opcode? with
      | none =>
        have hop' : ({ i with line := n + 1 } : Instruction).opcode? = none := hop
        simp [lineFlaw?_of_unknown hline hop, errorOf_assemble_of_unknown hop', Diagnostic.ofLine]
      | some op =>
        have hop' : ({ i with line := n + 1 } : Instruction).opcode?.isSome :=
          Option.isSome_iff_exists.mpr ⟨op, hop⟩
        rw [lineFlaw?_of_known hline hop]
        simp only [errorOf_assemble_of_known hop']
        cases op.takesArgument with
        | true => exact ih (n + 1)
        | false =>
          cases i.argument with
          | none => exact ih (n + 1)
          | some k => simpa [Diagnostic.ofLine] using ih (n + 1)

/-! ## Edits that make no difference -/

theorem forall₂_sameWords_filter (n m : Nat) (ls : List (List Char)) :
    List.Forall₂ SameWords (ofLinesFrom n (ls.filter (!isSkipped ·))) (ofLinesFrom m ls) := by
  induction ls generalizing n m with
  | nil => exact .nil
  | cons line ls ih =>
    cases hline : ofLine? line with
    | none =>
      rw [ofLinesFrom, hline]
      by_cases hskipped : isSkipped line = true
      · rw [List.filter_cons_of_neg (by simp [hskipped])]
        exact ih n (m + 1)
      · rw [List.filter_cons_of_pos (by simpa using hskipped), ofLinesFrom, hline]
        exact ih (n + 1) (m + 1)
    | some i =>
      rw [List.filter_cons_of_pos (by simp [isSkipped, hline]), ofLinesFrom, ofLinesFrom, hline]
      exact .cons ⟨rfl, rfl⟩ (ih (n + 1) (m + 1))

/-- Lines that are no instructions can be deleted. -/
theorem assemble_filter_isSkipped (ls : List (List Char)) :
    (assemble (ofLines (ls.filter (!isSkipped ·)))).mapError UnknownMnemonic.mnemonic =
      (assemble (ofLines ls)).mapError UnknownMnemonic.mnemonic :=
  Stream.assemble_mapError_of_sameWords (forall₂_sameWords_filter 1 1 ls)

/-- A line without an argument that its operation does not take. -/
def withoutIdle (line : List Char) : List Char :=
  if hasIdleArgument line then withoutArgument line else line

theorem exists_of_hasIdleArgument {line : List Char} (h : hasIdleArgument line = true) :
    ∃ i op n, ofLine? line = some i ∧ i.opcode? = some op ∧ op.takesArgument = false ∧
      i.argument = some n := by
  rw [hasIdleArgument] at h
  split at h
  · cases h
  · rename_i i hline
    rw [Bool.and_eq_true, Option.isSome_iff_exists, Option.any_eq_true] at h
    obtain ⟨⟨n, hn⟩, op, hop, htakes⟩ := h
    exact ⟨i, op, n, hline, hop, by simpa using htakes, hn⟩

theorem encode_without_argument {i : Instruction} {op : Opcode} (hop : i.opcode? = some op)
    (htakes : op.takesArgument = false) :
    Stream.encode { i with argument := none } = Stream.encode i := by
  have hop' : ({ i with argument := none } : Instruction).opcode? = some op := hop
  simp [Stream.encode, hop, hop', htakes]

/-- Arguments that are not taken can be deleted. -/
theorem assemble_map_withoutIdle (n : Nat) (ls : List (List Char)) :
    assemble (ofLinesFrom n (ls.map withoutIdle)) = assemble (ofLinesFrom n ls) := by
  induction ls generalizing n with
  | nil => rfl
  | cons line ls ih =>
    rw [List.map_cons, ofLinesFrom, ofLinesFrom, withoutIdle]
    by_cases hidle : hasIdleArgument line = true
    · obtain ⟨i, op, k, hline, hop, htakes, hk⟩ := exists_of_hasIdleArgument hidle
      have hop' : ({ i with line := n } : Instruction).opcode? = some op := hop
      rw [if_pos hidle, (Assembly.ofLine?_withoutArgument hline hk).1, hline]
      simp only [assemble, ih, ← encode_without_argument hop' htakes]
    · rw [if_neg hidle]
      cases ofLine? line with
      | none => exact ih (n + 1)
      | some i => simp only [assemble, ih]

/-! ## The whole text -/

theorem opcode?_isSome_of_assemble {is : List Instruction} (h : errorOf (assemble is) = none) :
    ∀ i ∈ is, i.opcode?.isSome := by
  induction is with
  | nil => simp
  | cons i is ih =>
    cases hop : i.opcode? with
    | none =>
      rw [errorOf_assemble_of_unknown hop] at h
      cases h
    | some op =>
      have hi : i.opcode?.isSome := Option.isSome_iff_exists.mpr ⟨op, hop⟩
      rw [errorOf_assemble_of_known hi] at h
      simpa [hi] using ih h

theorem errorOf_eq_some_iff {ε α : Type} {r : Except ε α} {e : ε} :
    errorOf r = some e ↔ r = .error e := by
  cases r <;> simp [errorOf]

/-- The first error of a text is the one that the assembler stops at. -/
theorem find?_error_assemblyDiagnostics (text : List Char) :
    ((assemblyDiagnostics text).find? (·.severity == .error)).map
        (fun d => (d.line + 1, d.message)) =
      (errorOf (assemble (Assembly.parse text))).map fun e => (e.line, unknownText e.mnemonic) :=
  find?_error_lineDiagnostics 0 (Text.lines text)

/-- A line has a diagnostic with a message of some kind if that is what is wrong with the line. -/
theorem exists_assemblyDiagnostics_iff (text : List Char) (n : Nat) (severity : Severity)
    (message : String) :
    (∃ d ∈ assemblyDiagnostics text, d.line = n ∧ d.severity = severity ∧ d.message = message) ↔
      ∃ line, (Text.lines text)[n]? = some line ∧ lineFlaw? line = some (severity, message) := by
  simp only [assemblyDiagnostics, mem_lineDiagnostics, Nat.zero_add]
  constructor
  · rintro ⟨_, ⟨k, line, _, _, hline, hflaw, rfl⟩, rfl, rfl, rfl⟩
    exact ⟨line, hline, hflaw⟩
  · rintro ⟨line, hline, hflaw⟩
    exact ⟨_, ⟨n, line, severity, message, hline, hflaw, rfl⟩, rfl, rfl, rfl⟩

/-- What is shown about an assembly text agrees with the assembler.

There is an error if and only if assembling fails, and the first one names the line and the
mnemonic that it fails at; without an error no run meets an unknown mnemonic, on any channel and for
any number of steps. The lines that are warned about as no instructions are those that are neither
empty nor instructions, and without them the deltas are the same. The lines that are warned about
as having an idle argument can do without it: what stands before and after the number is the same
instruction with no argument, and doing so on all of them leaves the deltas as they are. -/
theorem assemblyDiagnostics_agree (text : List Char) :
    ((∃ d ∈ assemblyDiagnostics text, d.severity = .error) ↔
      ∃ e, assemble (Assembly.parse text) = .error e) ∧
    (∀ e, assemble (Assembly.parse text) = .error e →
      ∃ d, (assemblyDiagnostics text).find? (·.severity == .error) = some d ∧
        d.line + 1 = e.line ∧ d.message = unknownText e.mnemonic) ∧
    ((∀ d ∈ assemblyDiagnostics text, d.severity ≠ .error) →
      ∀ (σ : Type) (channel : Channel σ) (limit fuel : Nat) (world : σ) (mnemonic : String)
        (line : Nat),
        (Machine.runFrom channel (Assembly.parse text).toArray limit fuel 0
          (Machine.start world)).ending ≠ .failed (.unknown mnemonic line)) ∧
    (∀ n, (∃ d ∈ assemblyDiagnostics text,
        d.line = n ∧ d.severity = .warning ∧ d.message = skippedMessage) ↔
      ∃ line, (Text.lines text)[n]? = some line ∧ codeOf line ≠ [] ∧ ofLine? line = none) ∧
    (assemble (ofLines ((Text.lines text).filter (!isSkipped ·)))).mapError
        UnknownMnemonic.mnemonic =
      (assemble (Assembly.parse text)).mapError UnknownMnemonic.mnemonic ∧
    (∀ n, (∃ op k, ∃ d ∈ assemblyDiagnostics text,
        d.line = n ∧ d.severity = .warning ∧ d.message = idleMessage op k) ↔
      ∃ line, (Text.lines text)[n]? = some line ∧ hasIdleArgument line = true) ∧
    (∀ line, hasIdleArgument line = true → ∃ i k before number after, ofLine? line = some i ∧
      line = before ++ (number ++ after) ∧ Decimal.int? number = some k ∧
      withoutIdle line = before ++ after ∧
      ofLine? (withoutIdle line) = some { i with argument := none }) ∧
    assemble (ofLines ((Text.lines text).map withoutIdle)) = assemble (Assembly.parse text) := by
  have hfirst := find?_error_assemblyDiagnostics text
  refine ⟨?_, ?_, ?_, ?_, ?_, ?_, ?_, ?_⟩
  · have hsome := congrArg Option.isSome hfirst
    rw [Option.isSome_map, Option.isSome_map, Bool.eq_iff_iff, List.find?_isSome,
      Option.isSome_iff_exists] at hsome
    simpa only [beq_iff_eq, errorOf_eq_some_iff] using hsome
  · intro e he
    rw [errorOf_eq_some_iff.mpr he, Option.map_some, Option.map_eq_some_iff] at hfirst
    obtain ⟨d, hd, hshown⟩ := hfirst
    obtain ⟨hline, hmessage⟩ := Prod.mk.inj hshown
    exact ⟨d, hd, hline, hmessage⟩
  · intro hnone σ channel limit fuel world
    have hfind : (assemblyDiagnostics text).find? (·.severity == .error) = none :=
      List.find?_eq_none.mpr fun d hd => by simpa using hnone d hd
    rw [hfind, Option.map_none, eq_comm, Option.map_eq_none_iff] at hfirst
    exact Machine.runFrom_ne_unknown (opcode?_isSome_of_assemble hfirst) channel limit fuel 0 _
  · intro n
    rw [exists_assemblyDiagnostics_iff]
    refine exists_congr fun line => and_congr_right fun _ => ?_
    rw [lineFlaw?_eq_skipped_iff, isSkipped]
    simp
  · exact assemble_filter_isSkipped (Text.lines text)
  · intro n
    simp only [exists_assemblyDiagnostics_iff, ← lineFlaw?_eq_idle_iff]
    exact ⟨fun ⟨op, k, line, hline, hflaw⟩ => ⟨line, hline, op, k, hflaw⟩,
      fun ⟨line, hline, op, k, hflaw⟩ => ⟨op, k, line, hline, hflaw⟩⟩
  · intro line hidle
    obtain ⟨i, op, k, hline, -, -, hk⟩ := exists_of_hasIdleArgument hidle
    obtain ⟨hread, before, number, after, hparts, hnumber, hwithout⟩ :=
      Assembly.ofLine?_withoutArgument hline hk
    rw [withoutIdle, if_pos hidle]
    exact ⟨i, k, before, number, after, hline, hparts, hnumber, hwithout, hread⟩
  · exact assemble_map_withoutIdle 1 (Text.lines text)

end Editor

end Contour
