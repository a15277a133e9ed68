import Contour.Proofs.Command.Routes
import Contour.Proofs.Editor.Session
import Contour.Proofs.Machine.Budget
import Contour.Proofs.Utf8

/-!
# Trial runs and the command line

A trial run of a document in an editor is a run of its program with a limit. The command line
executes the program in a file without one. With the same text, the same input and the same format,
the two execute the same program (`load_document`), so that the one differs from the other at most
in being cut short:

* `output_isPrefix_watch`: what a run has written to a console stays written as it goes on;
* `execute_zero_of_ended`: a run that ends within the limit ends in the same way without one;
* `trial_agrees_with_command`: what this means for the output, the status and the message.
-/

namespace Contour

/-! ## Output on a console -/

namespace Console

/-- The console, with a text in front of what was written. -/
def behind (s : String) (c : Console) : Console := { c with output := s ++ c.output }

/-- What was written earlier changes no answer of a console. -/
theorem carries_behind (s : String) : channel.Carries (behind s) channel where
  read c := by
    obtain ⟨format, input, failure, output, room⟩ := c
    cases format with
    | char => cases input <;> rfl
    | number =>
      simp only [channel, read, readNumber, behind]
      -- What is read depends on the input and on its failure, and both are the same.
      split
      · rfl
      · split
        · rfl
        · cases failure <;> rfl
  write v c := by
    obtain ⟨format, input, failure, output, room⟩ := c
    rcases room with _ | _ | k <;> simp [channel, write, behind, String.append_assoc]

end Console

namespace Machine

/-- What has been written to a console stays written, as the run goes on. -/
theorem output_isPrefix_runFrom (program : Array Instruction) (limit fuel steps : Nat)
    (m : Machine Console) :
    m.world.output.toList <+:
      (runFrom Console.channel program limit fuel steps m).machine.world.output.toList := by
  -- The run goes on as it would on a console on which nothing is written yet.
  let m₀ : Machine Console := { m with world := { m.world with output := "" } }
  have hm : m₀.mapWorld (Console.behind m.world.output) = m := by
    simp [m₀, mapWorld, Console.behind]
  have hrun := runFrom_mapWorld (Console.carries_behind m.world.output) program limit fuel steps m₀
  rw [hm] at hrun
  rw [hrun]
  simp [Run.mapWorld, mapWorld, Console.behind]

variable {program : List Instruction}

theorem output_isPrefix_watch {world : Console} {n n' : Nat} (h : n ≤ n') :
    (watch Console.channel program world n).machine.world.output.toList <+:
      (watch Console.channel program world n').machine.world.output.toList := by
  obtain ⟨k, rfl⟩ := Nat.exists_eq_add_of_le h
  rw [watch_add, Run.resume]
  split
  · exact output_isPrefix_runFrom ..
  · exact List.prefix_rfl

/-- A run that ends after few steps is the same without a limit. -/
theorem execute_zero_of_ended {σ : Type} {channel : Channel σ} {world : σ} {n fuel : Nat}
    (hended : (watch channel program world fuel).ending ≠ .unfinished)
    (hsteps : (watch channel program world fuel).steps ≤ n) (hn : n < patience) :
    execute channel program 0 world = watch channel program world fuel := by
  have hseen := watch_succ_of_ended hended hsteps
  have hlong : execute channel program 0 world = watch channel program world patience := rfl
  rw [hlong, watch_of_ended (by rwa [hseen]) (show n + 1 ≤ patience from hn), hseen]

end Machine

/-- Every fault is put into words. -/
theorem Fault.message_ne_empty (f : Fault) : f.message ≠ "" := by
  cases f with
  | unknown mnemonic line =>
    show unknownMessage mnemonic line ≠ ""
    rw [unknownMessage]
    split <;> simp
  | division op => cases op <;> decide
  | channel position i error =>
    rw [message_channel]
    simp
  | limit steps =>
    show "step limit of " ++ Decimal.text steps ++ " instructions reached" ≠ ""
    simp

namespace Editor

open Files
open Command (Loaded Outcome shape)

/-! ## Documents in files -/

/-- The kind of input under which the command line knows a language. -/
def Language.inputType : Language → String
  | source => "p"
  | assembly => "a"

/-- A file with the text of a document is loaded as the program of the document. -/
theorem load_document {w : Workspace} {uri text path : String} {program : List Instruction}
    (hfile : w.tree.read w.working path = .ok (Utf8.encode text.toList))
    (hloads : instructionsOf uri text = .ok program) :
    ∃ p : Loaded, (Loaded.load Workspace.host path (Language.ofUri uri).inputType).run w =
      (.ok p, w) ∧ p.instructions = program := by
  delta instructionsOf at hloads
  cases hlanguage : Language.ofUri uri with
  | source =>
    rw [hlanguage] at hloads
    cases hds : Source.deltas text.toList with
    | error e =>
      rw [hds] at hloads
      cases hloads
    | ok ds =>
      rw [hds] at hloads
      cases hloads
      exact ⟨_, Command.load_source hfile (by rw [Utf8.decode_encode, hds]),
        Command.instructions_deltas _ ds⟩
  | assembly =>
    rw [hlanguage] at hloads
    cases hloads
    exact ⟨_, Command.load_assembly hfile, by
      rw [Command.instructions_ofAssembly, Utf8.decode_encode]⟩

/-- The reply to a command that runs an open document. -/
theorem reply_trialCommand {requests : List Request} {uri text input F : String} {format : Format}
    {program : List Instruction} (hformat : Format.ofName? F = some format)
    (hopen : Latest (Request.effect uri) requests text) (hrunning : Request.shutdown ∉ requests)
    (hloads : instructionsOf uri text = .ok program) :
    ((Session.after {} requests).respond
        (.execute trialCommand [.text uri, .text input, .text F])).reply =
      .ok (.trial (Trial.run trialBudget format input.toList program)) := by
  have hname : Session.formatOf (some (.text F)) = .ok format := by
    show (Format.ofName F).mapError Refusal.badFormat = .ok format
    rw [Format.ofName, hformat]
    rfl
  have hne : [Data.text uri, .text input, .text F] ≠ [] := by simp
  have hreply := Session.execute_trialCommand hne rfl hname
    ((Session.document?_after_iff requests uri text).mpr hopen) hloads
  rw [(Session.runner_after requests).1 hrunning] at hreply
  exact hreply

/-! ## Runs with and without a limit -/

section

variable {format : Format} {input : List Char} {program : List Instruction}

/-- A trial that was not cut short is the run that the command line reports. -/
theorem reportOf_of_ended {fuel : Nat}
    (hended : (Machine.watch Console.channel program { format, input } fuel).ending ≠ .unfinished)
    (hsteps : (Machine.watch Console.channel program { format, input } fuel).steps ≤ trialBudget) :
    Command.reportOf format (Utf8.encode input) program =
      { output := (Trial.run trialBudget format input program).output
        failure := (Trial.run trialBudget format input program).error } := by
  have hlimit := Machine.execute_of_ended (by decide : 0 < trialBudget) hended hsteps
  have hfree := Machine.execute_zero_of_ended hended hsteps (by decide)
  simp only [Command.reportOf, Command.runOn, Trial.run, Utf8.decode_encode, hlimit, hfree]

/-- A trial that was cut short says so. -/
theorem error_of_not_ended
    (h : ∀ fuel,
      (Machine.watch Console.channel program { format, input } fuel).ending ≠ .unfinished →
        trialBudget < (Machine.watch Console.channel program { format, input } fuel).steps) :
    (Trial.run trialBudget format input program).error =
      some (Fault.limit trialBudget).message := by
  obtain ⟨m, -, hcut⟩ := Machine.execute_of_not_ended (by decide : 0 < trialBudget) h
  simp only [Trial.run, hcut]
  rfl

/-- The output of a trial is the start of what the program writes without a limit. -/
theorem output_isPrefix_of_trial {n : Nat} (h : trialBudget ≤ n) :
    (Trial.run trialBudget format input program).output.toList <+:
      (Machine.watch Console.channel program { format, input } n).machine.world.output.toList := by
  have hmachine : (Trial.run trialBudget format input program).output =
      (Machine.watch Console.channel program
        { format, input } trialBudget).machine.world.output := by
    rw [← Machine.machine_execute (by decide : 0 < trialBudget)]
    rfl
  rw [hmachine]
  exact Machine.output_isPrefix_watch h

end

theorem error_ne_empty (format : Format) (input : List Char) (program : List Instruction) :
    (Trial.run trialBudget format input program).error ≠ some "" := by
  intro h
  obtain ⟨f, -, hf⟩ := Option.map_eq_some_iff.mp h
  exact f.message_ne_empty hf

theorem output_ofReport (r : Command.Report) : (Outcome.ofReport r).output = r.output := by
  rw [Outcome.ofReport]
  split <;> rfl

theorem output_reportOf (format : Format) (input : List Char) (program : List Instruction) :
    (Command.reportOf format (Utf8.encode input) program).output =
      (Machine.watch Console.channel program { format, input }
        Machine.patience).machine.world.output := by
  simp only [Command.reportOf, Utf8.decode_encode]
  rfl

/-- What a report comes to: its failure decides the status and the message. -/
theorem ofReport_status_and_errors (output : String) {error : Option String}
    (h : error ≠ some "") :
    (error.getD "" ≠ "" ↔ (Outcome.ofReport ⟨output, error⟩).status = 1) ∧
      (∀ message, error = some message →
        (Outcome.ofReport ⟨output, error⟩).errors = "Error: " ++ message ++ "\n") ∧
      (error = none → (Outcome.ofReport ⟨output, error⟩).status = 0 ∧
        (Outcome.ofReport ⟨output, error⟩).errors = "") := by
  cases error with
  | none => simp [Outcome.ofReport]
  | some message =>
    have hmessage : message ≠ "" := fun heq => h (congrArg some heq)
    simp [Outcome.ofReport, Outcome.failed, hmessage]

/-- A trial run of an open document agrees with the command line on a file with the same text. If
the trial is cut short, its output is the start of what the command writes, however long that runs.
Otherwise the command comes to its end, its output is that of the trial, and it fails exactly if the
trial does, with the same message. -/
theorem trial_agrees_with_command (w : Workspace) (serve : StateM Workspace (Option String))
    {requests : List Request} {uri text input F path : String} {format : Format}
    {program : List Instruction} (hw : w.IsPlain) (hpath : shape path = .argument)
    (hfile : w.tree.read w.working path = .ok (Utf8.encode text.toList))
    (hinput : w.input = Utf8.encode input.toList) (hformat : Format.ofName? F = some format)
    (hopen : Latest (Request.effect uri) requests text) (hrunning : Request.shutdown ∉ requests)
    (hloads : instructionsOf uri text = .ok program) :
    ∃ (t : Trial) (o : Outcome),
      ((Session.after {} requests).respond
        (.execute trialCommand [.text uri, .text input, .text F])).reply = .ok (.trial t) ∧
      (Command.run Workspace.host serve
        ["-i", (Language.ofUri uri).inputType, "-f", F, path]).run w = (o, w) ∧
      ((t.error = some "step limit of 1000000 instructions reached" ∧
          t.output.toList <+: o.output.toList ∧
          ∀ n, trialBudget ≤ n → t.output.toList <+:
            (Machine.watch Console.channel program
              { format, input := input.toList } n).machine.world.output.toList) ∨
        ((∃ n, (Machine.watch Console.channel program
            { format, input := input.toList } n).ending ≠ .unfinished) ∧
          o.output = t.output ∧ (t.error.getD "" ≠ "" ↔ o.status = 1) ∧
          (∀ message, t.error = some message → o.errors = "Error: " ++ message ++ "\n") ∧
          (t.error = none → o.status = 0 ∧ o.errors = ""))) := by
  obtain ⟨p, hload, hprogram⟩ := load_document hfile hloads
  have hkind : (InputKind.ofName? (Language.ofUri uri).inputType).isSome = true := by
    cases Language.ofUri uri <;> rfl
  have hcommand := Command.run_input_format serve hw hpath hformat hkind hload
  rw [hprogram, hinput] at hcommand
  refine ⟨_, _, reply_trialCommand hformat hopen hrunning hloads, hcommand, ?_⟩
  by_cases h : ∃ n,
      (Machine.watch Console.channel program { format, input := input.toList } n).ending ≠
        .unfinished ∧
      (Machine.watch Console.channel program { format, input := input.toList } n).steps ≤
        trialBudget
  · obtain ⟨n, hended, hsteps⟩ := h
    rw [reportOf_of_ended hended hsteps]
    refine .inr ⟨⟨n, hended⟩, output_ofReport _, ?_⟩
    exact ofReport_status_and_errors _ (error_ne_empty format input.toList program)
  · have hlonger : ∀ n,
        (Machine.watch Console.channel program { format, input := input.toList } n).ending ≠
          .unfinished →
        trialBudget <
          (Machine.watch Console.channel program { format, input := input.toList } n).steps := by
      intro n hended
      by_contra hsteps
      exact h ⟨n, hended, Nat.not_lt.mp hsteps⟩
    have hmessage : (Fault.limit trialBudget).message =
        "step limit of 1000000 instructions reached" := by decide +kernel
    refine .inl ⟨(error_of_not_ended hlonger).trans (congrArg some hmessage), ?_,
      fun n => output_isPrefix_of_trial⟩
    rw [output_ofReport, output_reportOf]
    exact output_isPrefix_of_trial (by decide)

/-- An echo, in an editor after a change of the document and on the command line. -/
theorem trial_agrees_with_command_echoing :
    let requests := [Request.opened "file:///echo.fya" "print",
      .changed "file:///echo.fya" (some "read\nprint\n")]
    Latest (Request.effect "file:///echo.fya") requests "read\nprint\n" ∧
      ∃ (t : Trial) (o : Outcome),
        ((Session.after {} requests).respond (.execute trialCommand
          [.text "file:///echo.fya", .text "A", .text "char"])).reply = .ok (.trial t) ∧
        (Command.run Workspace.host (pure none) ["-i", "a", "-f", "char", "echo.fya"]).run
          Command.echoing = (o, Command.echoing) ∧
        t.output = "A" ∧ o.output = "A" ∧ o.status = 0 ∧ o.errors = "" := by
  intro requests
  have hopen : Latest (Request.effect "file:///echo.fya") requests "read\nprint\n" :=
    ⟨[.opened "file:///echo.fya" "print"], _, [], rfl, by simp [Request.effect], by simp⟩
  have hlanguage : Language.ofUri "file:///echo.fya" = .assembly := by decide +kernel
  have hloads : instructionsOf "file:///echo.fya" "read\nprint\n" =
      .ok [{ mnemonic := "read", line := 1 }, { mnemonic := "print", line := 2 }] := by
    decide +kernel
  have hpath : shape "echo.fya" = .argument := by decide +kernel
  have hfile : Command.echoing.tree.read Command.echoing.working "echo.fya" =
      .ok (Utf8.encode "read\nprint\n".toList) := by decide +kernel
  have hinput : Command.echoing.input = Utf8.encode "A".toList := by decide +kernel
  have hformat : Format.ofName? "char" = some .char := rfl
  obtain ⟨t, o, hreply, hcommand, hagree⟩ := trial_agrees_with_command Command.echoing (pure none)
    Command.isPlain_echoing hpath hfile hinput hformat hopen (by simp [requests]) hloads
  have htrial : ((Session.after {} requests).respond (.execute trialCommand
      [.text "file:///echo.fya", .text "A", .text "char"])).reply =
        .ok (.trial { output := "A", steps := 2 }) := by decide +kernel
  obtain rfl : t = { output := "A", steps := 2 } := by
    rw [hreply] at htrial
    cases htrial
    rfl
  obtain ⟨herror, -⟩ | ⟨-, houtput, -, -, hdone⟩ := hagree
  · cases herror
  · obtain ⟨hstatus, herrors⟩ := hdone rfl
    rw [hlanguage] at hcommand
    exact ⟨hopen, _, o, hreply, hcommand, rfl, houtput, hstatus, herrors⟩

end Editor

end Contour
