import Contour.Trial

/-!
# The protocol of a runner

A runner serves any number of callers with one worker. A caller looks whether the runner was
stopped, offers its request to a queue with a bounded number of places, and waits for the reply at a
place of its own, which holds one reply. The worker takes one request after the other, executes it
and leaves the reply at the place that belongs to the request. Stopping the runner closes it for
good; whoever waits for anything sees this at some time, and gives up if it does not find what it
waits for first. `Step` is one step of any of them, and `Trace` any number of steps in any order.

* `exists_trace_run`: what a runner gives to a single caller is what the protocol can give;
* `pending_step`: a request is taken from place to place and never doubled;
* `replies_step`: a reply comes from an execution;
* `sound_step`: what is under way belongs to the call that it is for;
* `late_step`: a call to a runner that was stopped never submits its request;
* `trials_of_calls`: what this means for the trials that the calls return.
-/

namespace Contour

/-! ## Stopped trials -/

theorem ne_of_head?_ne {s t : String} (h : s.toList.head? ≠ t.toList.head?) : s ≠ t :=
  fun heq => h (congrArg (fun s => s.toList.head?) heq)

theorem append_division_ne_stopped (name : String) :
    name ++ ": integer division by zero" ≠ "run worker stopped" := by
  intro h
  have hlength := congrArg String.length h
  have hleft : ": integer division by zero".length = 26 := by decide
  have hright : "run worker stopped".length = 18 := by decide
  rw [String.length_append, hleft, hright] at hlength
  omega

/-- No fault reads as if the runner had been stopped. -/
theorem Fault.message_ne_stopped (f : Fault) : f.message ≠ "run worker stopped" := by
  cases f with
  | unknown mnemonic line =>
    show unknownMessage mnemonic line ≠ _
    rw [unknownMessage]
    split <;> exact ne_of_head?_ne (by simp)
  | division op =>
    cases op with
    | mod => exact ne_of_head?_ne (s := "mod: integer modulo by zero") (by decide)
    | pow => exact ne_of_head?_ne (s := "pow: 0 cannot be raised to a negative power") (by decide)
    | _ => exact append_division_ne_stopped _
  | channel position i error =>
    show "instruction " ++ _ ++ _ ++ _ ++ _ ++ _ ≠ _
    exact ne_of_head?_ne (by simp)
  | limit steps =>
    show "step limit of " ++ _ ++ _ ≠ _
    exact ne_of_head?_ne (by simp)

theorem Trial.run_ne_stopped (budget : Nat) (format : Format) (input : List Char)
    (program : List Instruction) : run budget format input program ≠ stopped := by
  intro h
  obtain ⟨f, -, hf⟩ := Option.map_eq_some_iff.mp (congrArg Trial.error h)
  exact f.message_ne_stopped hf

namespace Runner

/-! ## Steps -/

/-- What a caller asks for. -/
structure Request where
  format : Format
  input : List Char
  program : List Instruction
deriving DecidableEq, Repr

/-- The trial run that is asked for. -/
def Request.trial (budget : Nat) (r : Request) : Trial :=
  Trial.run budget r.format r.input r.program

/-- How far a call has come. -/
inductive Stage where
  /-- It is still to look whether the runner was stopped. -/
  | arriving
  /-- It offers its request. -/
  | offering
  /-- It has submitted its request and waits for the reply. -/
  | waiting
  | returned (t : Trial)
deriving DecidableEq, Repr

/-- Whether the request is still to be submitted. -/
def Stage.isEarly : Stage → Bool
  | arriving | offering => true
  | _ => false

def Stage.isReturned : Stage → Bool
  | returned _ => true
  | _ => false

/-- A call, with its place for a reply. -/
structure Call where
  request : Request
  stage : Stage := .arriving
  reply? : Option Trial := none
deriving DecidableEq, Repr

/-- A request under way, with the number of the call that waits for the reply. -/
structure Job where
  ticket : Nat
  request : Request
deriving DecidableEq, Repr

inductive Worker where
  /-- It waits for a job, or for the runner to be stopped. -/
  | ready
  | running (job : Job)
  /-- It has a trial for the call of a number. -/
  | replying (ticket : Nat) (t : Trial)
  | gone
deriving DecidableEq, Repr

def Worker.isRunning (k : Nat) : Worker → Bool
  | running job => job.ticket = k
  | _ => false

def Worker.isReplying (k : Nat) : Worker → Bool
  | replying ticket _ => ticket = k
  | _ => false

/-- The state of a runner and of everybody who calls it. -/
structure State where
  /-- The calls, by number. -/
  calls : List Call := []
  queue : List Job := []
  worker : Worker := .ready
  /-- Whether the runner was stopped. -/
  isClosed : Bool := false
  /-- The attempts to stop the runner, by number, and whether each of them has returned. -/
  stops : List Bool := []
deriving DecidableEq, Repr

/-- The number of places in the queue. -/
def capacity : Nat := 16

inductive Action where
  /-- Somebody calls. -/
  | call (r : Request)
  /-- A call finds that the runner was not stopped. -/
  | pass (k : Nat)
  /-- A call finds that the runner was stopped, and gives up. -/
  | refuse (k : Nat)
  | submit (k : Nat)
  /-- A call finds its reply, and returns it. -/
  | collect (k : Nat)
  | take
  | execute (k : Nat)
  | reply (k : Nat)
  /-- The worker finds that the runner was stopped. -/
  | leave
  /-- Somebody sets out to stop the runner. -/
  | stop
  | close (j : Nat)
  /-- An attempt to stop the runner returns. -/
  | finish (j : Nat)
deriving DecidableEq, Repr

/-- The request of a new call. -/
def Action.request? : Action → Option Request
  | call r => some r
  | _ => none

/-- The call whose caller acts. -/
def Action.caller? : Action → Option Nat
  | pass k | refuse k | submit k | collect k => some k
  | _ => none

/-- A step of a runner whose trials have a budget. Where several steps are possible, any of them may
come next. -/
inductive Step (budget : Nat) : State → Action → State → Prop
  | call {s : State} (r : Request) :
    Step budget s (.call r) { s with calls := s.calls ++ [{ request := r }] }
  | pass {s : State} {k : Nat} {c : Call} (hcall : s.calls[k]? = some c)
    (hstage : c.stage = .arriving) (hopen : s.isClosed = false) :
    Step budget s (.pass k) { s with calls := s.calls.set k { c with stage := .offering } }
  -- at its first look, with its offer, or while it waits for its reply
  | refuse {s : State} {k : Nat} {c : Call} (hcall : s.calls[k]? = some c)
    (hstage : c.stage.isReturned = false) (hclosed : s.isClosed = true) :
    Step budget s (.refuse k)
      { s with calls := s.calls.set k { c with stage := .returned Trial.stopped } }
  | submit {s : State} {k : Nat} {c : Call} (hcall : s.calls[k]? = some c)
    (hstage : c.stage = .offering) (hroom : s.queue.length < capacity) :
    Step budget s (.submit k)
      { s with calls := s.calls.set k { c with stage := .waiting }
               queue := s.queue ++ [⟨k, c.request⟩] }
  | collect {s : State} {k : Nat} {c : Call} {t : Trial} (hcall : s.calls[k]? = some c)
    (hstage : c.stage = .waiting) (hreply : c.reply? = some t) :
    Step budget s (.collect k)
      { s with calls := s.calls.set k { c with stage := .returned t, reply? := none } }
  | take {s : State} {job : Job} {rest : List Job} (hready : s.worker = .ready)
    (hqueue : s.queue = job :: rest) :
    Step budget s .take { s with queue := rest, worker := .running job }
  | execute {s : State} {job : Job} (hrunning : s.worker = .running job) :
    Step budget s (.execute job.ticket)
      { s with worker := .replying job.ticket (job.request.trial budget) }
  | reply {s : State} {k : Nat} {c : Call} {t : Trial} (hreplying : s.worker = .replying k t)
    (hcall : s.calls[k]? = some c) (hroom : c.reply? = none) :
    Step budget s (.reply k)
      { s with calls := s.calls.set k { c with reply? := some t }, worker := .ready }
  | leave {s : State} (hready : s.worker = .ready) (hclosed : s.isClosed = true) :
    Step budget s .leave { s with worker := .gone }
  | stop {s : State} : Step budget s .stop { s with stops := s.stops ++ [false] }
  -- the first of several attempts closes the runner, and the others find it closed
  | close {s : State} {j : Nat} (hstop : s.stops[j]? = some false) (hopen : s.isClosed = false) :
    Step budget s (.close j) { s with isClosed := true }
  | finish {s : State} {j : Nat} (hstop : s.stops[j]? = some false) (hclosed : s.isClosed = true) :
    Step budget s (.finish j) { s with stops := s.stops.set j true }

/-- Any number of steps. -/
inductive Trace (budget : Nat) : State → List Action → State → Prop
  | nil {s : State} : Trace budget s [] s
  | cons {s s' u : State} {a : Action} {as : List Action} :
    Step budget s a s' → Trace budget s' as u → Trace budget s (a :: as) u

variable {budget : Nat} {s s' u : State} {a : Action} {as bs : List Action} {k : Nat}
  {calls : List Call} {c : Call}

/-- What every step keeps holds after a trace, and what it grants of a step holds of all steps. -/
theorem Trace.keep {p : State → Prop} {q : Action → Prop}
    (hstep : ∀ {s a s'}, Step budget s a s' → p s → p s' ∧ q a) (h : Trace budget s as u)
    (hs : p s) : p u ∧ ∀ a ∈ as, q a := by
  induction h with
  | nil => exact ⟨hs, nofun⟩
  | cons hfirst _ ih =>
    obtain ⟨hs', ha⟩ := hstep hfirst hs
    obtain ⟨hu, has⟩ := ih hs'
    exact ⟨hu, List.forall_mem_cons.mpr ⟨ha, has⟩⟩

theorem Trace.append (h : Trace budget s as s') (h' : Trace budget s' bs u) :
    Trace budget s (as ++ bs) u := by
  induction h with
  | nil => exact h'
  | cons hfirst _ ih => exact .cons hfirst (ih h')

/-- What a runner gives to a single caller is what the protocol can give. -/
theorem exists_trace_run (r : Runner) (q : Request) :
    ∃ as s, Trace r.budget {} as s ∧
      s.calls.map (fun c => (c.request, c.stage)) =
        [(q, .returned (r.run q.format q.input q.program))] := by
  obtain ⟨budget, isRunning⟩ := r
  cases isRunning with
  | true =>
    exact ⟨[.call q, .pass 0, .submit 0, .take, .execute 0, .reply 0, .collect 0], _,
      .cons (.call q) <| .cons (.pass rfl rfl rfl) <|
        .cons (.submit rfl rfl (Nat.succ_pos 15)) <| .cons (.take rfl rfl) <|
        .cons (@Step.execute _ _ ⟨0, q⟩ rfl) <| .cons (.reply rfl rfl rfl) <|
        .cons (.collect rfl rfl rfl) .nil, rfl⟩
  | false =>
    exact ⟨[.stop, .close 0, .call q, .refuse 0], _,
      .cons .stop <| .cons (.close rfl rfl) <| .cons (.call q) <|
        .cons (.refuse rfl rfl rfl) .nil, rfl⟩

theorem getElem?_set_call (h : calls[k]? = some c) (c' : Call) (j : Nat) :
    (calls.set k c')[j]? = if k = j then some c' else calls[j]? := by
  obtain ⟨hk, -⟩ := List.getElem?_eq_some_iff.mp h
  simp [List.getElem?_set, hk]

theorem forall_mem_set_call {p : Call → Prop} {c' : Call}
    (h : ∀ c ∈ calls, p c) (hc : p c') : ∀ c ∈ calls.set k c', p c := by
  intro c hmem
  rcases List.mem_or_eq_of_mem_set hmem with hold | rfl
  · exact h c hold
  · exact hc

/-! ## Whose request and whose reply -/

/-- The requests of the calls. -/
def State.requests (s : State) : List Request := s.calls.map Call.request

theorem map_request_set (h : calls[k]? = some c) (stage : Stage) (reply? : Option Trial) :
    (calls.set k { request := c.request, stage, reply? }).map Call.request =
      calls.map Call.request := by
  refine List.ext_getElem? fun j => ?_
  rw [List.getElem?_map, List.getElem?_map, getElem?_set_call h]
  split
  · next hj => rw [← hj, h]; rfl
  · rfl

/-- A new call brings its request, and a call keeps its request. -/
theorem requests_step (h : Step budget s a s') :
    s'.requests = s.requests ++ [a].filterMap Action.request? := by
  cases h with
  | call r => simp [State.requests, Action.request?]
  | pass hcall | refuse hcall | submit hcall | collect hcall | reply _ hcall =>
    exact (map_request_set hcall _ _).trans (List.append_nil _).symm
  | _ => exact (List.append_nil _).symm

theorem requests_trace (h : Trace budget s as u) :
    u.requests = s.requests ++ as.filterMap Action.request? := by
  induction h with
  | nil => simp
  | @cons _ _ _ a as hfirst _ ih =>
    rw [ih, requests_step hfirst, List.append_assoc, ← List.filterMap_append]
    rfl

theorem getElem?_requests_step {r : Request} (h : Step budget s a s')
    (hr : s.requests[k]? = some r) : s'.requests[k]? = some r := by
  obtain ⟨hk, -⟩ := List.getElem?_eq_some_iff.mp hr
  rw [requests_step h, List.getElem?_append_left hk, hr]

/-- The reply to a call is the trial that it asked for, and so is what it returns, unless the runner
was stopped. -/
structure Call.Sound (budget : Nat) (isClosed : Bool) (c : Call) : Prop where
  reply : ∀ t, c.reply? = some t → t = c.request.trial budget
  returned : ∀ t, c.stage = .returned t →
    t = c.request.trial budget ∨ t = Trial.stopped ∧ isClosed = true

/-- What is under way belongs to the call that it is for. -/
structure Sound (budget : Nat) (s : State) : Prop where
  queue : ∀ job ∈ s.queue, s.requests[job.ticket]? = some job.request
  running : ∀ job, s.worker = .running job → s.requests[job.ticket]? = some job.request
  replying : ∀ k t, s.worker = .replying k t → ∃ r, s.requests[k]? = some r ∧ t = r.trial budget
  calls : ∀ c ∈ s.calls, c.Sound budget s.isClosed
  closed : s.isClosed = true → s.stops ≠ []
  stops : true ∈ s.stops → s.isClosed = true

theorem sound_init : Sound budget {} := by
  constructor <;> simp

/-- No step mixes up two calls. -/
theorem sound_step (h : Step budget s a s') (hs : Sound budget s) : Sound budget s' := by
  have hqueue : ∀ job ∈ s.queue, s'.requests[job.ticket]? = some job.request :=
    fun job hjob => getElem?_requests_step h (hs.queue job hjob)
  have hrunning : ∀ job, s.worker = .running job → s'.requests[job.ticket]? = some job.request :=
    fun job hjob => getElem?_requests_step h (hs.running job hjob)
  have hreplying : ∀ k t, s.worker = .replying k t →
      ∃ r, s'.requests[k]? = some r ∧ t = r.trial budget := by
    intro k t hworker
    obtain ⟨r, hr, ht⟩ := hs.replying k t hworker
    exact ⟨r, getElem?_requests_step h hr, ht⟩
  cases h with
  | call r =>
    refine ⟨hqueue, hrunning, hreplying, fun c hc => ?_, hs.closed, hs.stops⟩
    rcases List.mem_append.mp hc with hold | hnew
    · exact hs.calls c hold
    · rw [List.mem_singleton.mp hnew]
      exact ⟨nofun, nofun⟩
  | pass hcall =>
    have hc := hs.calls _ (List.mem_of_getElem? hcall)
    exact ⟨hqueue, hrunning, hreplying, forall_mem_set_call hs.calls ⟨hc.reply, nofun⟩, hs.closed,
      hs.stops⟩
  | refuse hcall _ hclosed =>
    have hc := hs.calls _ (List.mem_of_getElem? hcall)
    refine ⟨hqueue, hrunning, hreplying, forall_mem_set_call hs.calls ⟨hc.reply, ?_⟩, hs.closed,
      hs.stops⟩
    rintro t ⟨⟩
    exact .inr ⟨rfl, hclosed⟩
  | submit hcall =>
    have hc := hs.calls _ (List.mem_of_getElem? hcall)
    refine ⟨fun job hjob => ?_, hrunning, hreplying, forall_mem_set_call hs.calls ⟨hc.reply, nofun⟩,
      hs.closed, hs.stops⟩
    rcases List.mem_append.mp hjob with hold | hnew
    · exact hqueue job hold
    · rw [List.mem_singleton.mp hnew, State.requests, map_request_set hcall, List.getElem?_map,
        hcall]
      rfl
  | collect hcall _ hreply =>
    have hc := hs.calls _ (List.mem_of_getElem? hcall)
    refine ⟨hqueue, hrunning, hreplying, forall_mem_set_call hs.calls ⟨nofun, ?_⟩, hs.closed,
      hs.stops⟩
    rintro t ⟨⟩
    exact .inl (hc.reply _ hreply)
  | take _ hjobs =>
    rw [hjobs] at hqueue
    refine ⟨fun job hjob => hqueue job (.tail _ hjob), ?_, nofun, hs.calls, hs.closed, hs.stops⟩
    rintro _ ⟨⟩
    exact hqueue _ (.head _)
  | execute hworker =>
    refine ⟨hqueue, nofun, ?_, hs.calls, hs.closed, hs.stops⟩
    rintro k t ⟨⟩
    exact ⟨_, hrunning _ hworker, rfl⟩
  | reply hworker hcall =>
    have hc := hs.calls _ (List.mem_of_getElem? hcall)
    refine ⟨hqueue, nofun, nofun, forall_mem_set_call hs.calls ⟨?_, hc.returned⟩, hs.closed,
      hs.stops⟩
    rintro t ⟨⟩
    obtain ⟨r, hr, ht⟩ := hs.replying _ _ hworker
    simp only [State.requests, List.getElem?_map, hcall, Option.map_some, Option.some.injEq] at hr
    rw [ht, hr]
  | leave => exact ⟨hqueue, nofun, nofun, hs.calls, hs.closed, hs.stops⟩
  | stop =>
    exact ⟨hqueue, hrunning, hreplying, hs.calls, by simp, fun h => hs.stops (by simpa using h)⟩
  | close hstop =>
    refine ⟨hqueue, hrunning, hreplying, fun c hc => ⟨(hs.calls c hc).reply, ?_⟩, ?_, fun _ => rfl⟩
    · exact fun t ht => ((hs.calls c hc).returned t ht).imp_right fun h => ⟨h.1, rfl⟩
    · exact fun _ => List.ne_nil_of_mem (List.mem_of_getElem? hstop)
  | finish _ hclosed =>
    exact ⟨hqueue, hrunning, hreplying, hs.calls, by simpa using hs.closed, fun _ => hclosed⟩

theorem sound_trace (h : Trace budget {} as s) : Sound budget s :=
  (h.keep (q := fun _ => True) (fun h hs => ⟨sound_step h hs, trivial⟩) sound_init).1

/-! ## Where a request is -/

/-- Whether the request of a call is still to be submitted, be it that the call is still to come. -/
def isUnsubmitted (calls : List Call) (k : Nat) : Bool := calls[k]?.all (·.stage.isEarly)

/-- Whether there is a reply at the place of a call. -/
def isReplied (calls : List Call) (k : Nat) : Bool := calls[k]?.any (·.reply?.isSome)

/-- The number of executions that the request of a call can still come to: it is to be submitted,
is in the queue, or is the one that the worker runs. -/
def State.pending (s : State) (k : Nat) : Nat :=
  (isUnsubmitted s.calls k).toNat + (s.queue.map Job.ticket).count k +
    (s.worker.isRunning k).toNat

/-- The number of replies under way to a call. -/
def State.replies (s : State) (k : Nat) : Nat :=
  (s.worker.isReplying k).toNat + (isReplied s.calls k).toNat

@[simp] theorem isUnsubmitted_concat (calls : List Call) (r : Request) (k : Nat) :
    isUnsubmitted (calls ++ [{ request := r }]) k = isUnsubmitted calls k := by
  grind [isUnsubmitted, Stage.isEarly]

@[simp] theorem isReplied_concat (calls : List Call) (r : Request) (k : Nat) :
    isReplied (calls ++ [{ request := r }]) k = isReplied calls k := by
  grind [isReplied]

theorem isUnsubmitted_eq (h : calls[k]? = some c) : isUnsubmitted calls k = c.stage.isEarly := by
  rw [isUnsubmitted, h]
  rfl

theorem isReplied_eq (h : calls[k]? = some c) : isReplied calls k = c.reply?.isSome := by
  rw [isReplied, h]
  rfl

theorem isUnsubmitted_set (h : calls[k]? = some c) (c' : Call) (j : Nat) :
    isUnsubmitted (calls.set k c') j =
      if k = j then c'.stage.isEarly else isUnsubmitted calls j := by
  rw [isUnsubmitted, getElem?_set_call h]
  split <;> rfl

theorem isReplied_set (h : calls[k]? = some c) (c' : Call) (j : Nat) :
    isReplied (calls.set k c') j = if k = j then c'.reply?.isSome else isReplied calls j := by
  rw [isReplied, getElem?_set_call h]
  split <;> rfl

/-- A call does not go back to submit its request. -/
theorem toNat_isUnsubmitted_set_le {c' : Call} (h : calls[k]? = some c)
    (hstage : c'.stage.isEarly.toNat ≤ c.stage.isEarly.toNat) (j : Nat) :
    (isUnsubmitted (calls.set k c') j).toNat ≤ (isUnsubmitted calls j).toNat := by
  rw [isUnsubmitted_set h]
  split
  · next hj => rwa [← hj, isUnsubmitted_eq h]
  · exact Nat.le_refl _

theorem toNat_isReplied_set_le {c' : Call} (h : calls[k]? = some c)
    (hreply : c'.reply?.isSome.toNat ≤ c.reply?.isSome.toNat) (j : Nat) :
    (isReplied (calls.set k c') j).toNat ≤ (isReplied calls j).toNat := by
  rw [isReplied_set h]
  split
  · next hj => rwa [← hj, isReplied_eq h]
  · exact Nat.le_refl _

/-- A request is taken from place to place, until it is executed or given up. -/
theorem pending_step (h : Step budget s a s') (k : Nat) :
    s'.pending k + [a].count (.execute k) ≤ s.pending k := by
  cases h with
  | call r => simp [State.pending]
  | pass hcall hstage =>
    simpa [State.pending] using toNat_isUnsubmitted_set_le hcall (by simp [hstage, Stage.isEarly]) k
  | refuse hcall =>
    simpa [State.pending] using toNat_isUnsubmitted_set_le hcall (by simp [Stage.isEarly]) k
  | @submit j c hcall hstage =>
    -- The request goes from the caller to the queue.
    by_cases hj : j = k
    · subst hj
      simp [State.pending, isUnsubmitted_set hcall, isUnsubmitted_eq hcall, hstage, Stage.isEarly,
        Nat.add_comm]
    · simp [State.pending, isUnsubmitted_set hcall, hj]
  | collect hcall =>
    simpa [State.pending] using toNat_isUnsubmitted_set_le hcall (by simp [Stage.isEarly]) k
  | take hready hqueue =>
    -- It goes from the queue to the worker.
    grind [State.pending, Worker.isRunning]
  | execute hrunning => grind [State.pending, Worker.isRunning]
  | reply hreplying hcall =>
    simpa [State.pending, hreplying, Worker.isRunning] using
      toNat_isUnsubmitted_set_le hcall (by simp) k
  | leave hready => simp [State.pending, hready, Worker.isRunning]
  | stop | close | finish => simp [State.pending]

/-- A reply to a call comes from an execution of its request. -/
theorem replies_step (h : Step budget s a s') (k : Nat) :
    s'.replies k ≤ s.replies k + [a].count (.execute k) := by
  cases h with
  | call r => simp [State.replies]
  | pass hcall | refuse hcall | submit hcall | collect hcall =>
    simpa [State.replies] using toNat_isReplied_set_le hcall (by simp) k
  | take hready => simp [State.replies, hready, Worker.isReplying]
  | execute hrunning => grind [State.replies, Worker.isReplying]
  | @reply j c t hreplying hcall =>
    -- The reply goes from the worker to its place.
    by_cases hj : j = k
    · subst hj
      simp [State.replies, isReplied_set hcall, hreplying, Worker.isReplying]
    · simp [State.replies, isReplied_set hcall, hreplying, Worker.isReplying, hj]
  | leave hready => simp [State.replies, hready, Worker.isReplying]
  | stop | close | finish => simp [State.replies]

theorem pending_trace (h : Trace budget s as u) (k : Nat) :
    u.pending k + as.count (.execute k) ≤ s.pending k := by
  induction h with
  | nil => simp
  | cons hfirst _ ih =>
    have hstep := pending_step hfirst k
    simp only [List.count_cons, List.count_nil] at hstep ⊢
    omega

theorem replies_trace (h : Trace budget s as u) (k : Nat) :
    u.replies k ≤ s.replies k + as.count (.execute k) := by
  induction h with
  | nil => simp
  | cons hfirst _ ih =>
    have hstep := replies_step hfirst k
    simp only [List.count_cons, List.count_nil] at hstep ⊢
    omega

/-! ## Calls to a stopped runner -/

/-- The runner was stopped, and a call, be it still to come, has not submitted its request. -/
structure Late (k : Nat) (s : State) : Prop where
  closed : s.isClosed = true
  queue : k ∉ s.queue.map Job.ticket
  running : s.worker.isRunning k = false
  stage : ∀ c, s.calls[k]? = some c → c.stage = .arriving ∨ c.stage = .returned Trial.stopped

/-- A call that comes late is never served. -/
theorem late_step (h : Step budget s a s') (hs : Late k s) : Late k s' ∧ a ≠ .execute k := by
  obtain ⟨hclosed, hqueue, hrunning, hstage⟩ := hs
  -- A step of another call, or one that leaves this call unsubmitted, keeps it unsubmitted.
  have hset {j : Nat} {c c' : Call} (hcall : s.calls[j]? = some c)
      (hc : j = k → c'.stage = .arriving ∨ c'.stage = .returned Trial.stopped) :
      ∀ d, (s.calls.set j c')[k]? = some d →
        d.stage = .arriving ∨ d.stage = .returned Trial.stopped := by
    intro d hd
    rw [getElem?_set_call hcall] at hd
    split at hd
    · next hj => exact Option.some.inj hd ▸ hc hj
    · exact hstage d hd
  have hother {j : Nat} {c : Call} (hcall : s.calls[j]? = some c)
      (hc : ¬ (c.stage = .arriving ∨ c.stage = .returned Trial.stopped)) : j ≠ k := by
    rintro rfl
    exact hc (hstage c hcall)
  cases h with
  | call r =>
    refine ⟨⟨hclosed, hqueue, hrunning, fun d hd => ?_⟩, nofun⟩
    rw [List.getElem?_append] at hd
    split at hd
    · exact hstage d hd
    · have hnew := List.mem_singleton.mp (List.mem_of_getElem? hd)
      exact .inl (by rw [hnew])
  | pass _ _ hopen => exact absurd (hclosed.symm.trans hopen) (by decide)
  | refuse hcall => exact ⟨⟨hclosed, hqueue, hrunning, hset hcall fun _ => .inr rfl⟩, nofun⟩
  | submit hcall hoffering =>
    have hj := hother hcall (by simp [hoffering])
    refine ⟨⟨hclosed, ?_, hrunning, hset hcall fun h => absurd h hj⟩, nofun⟩
    simpa [hj.symm] using hqueue
  | collect hcall hwaiting =>
    have hj := hother hcall (by simp [hwaiting])
    exact ⟨⟨hclosed, hqueue, hrunning, hset hcall fun h => absurd h hj⟩, nofun⟩
  | take _ hjobs =>
    rw [hjobs, List.map_cons, List.mem_cons, not_or] at hqueue
    exact ⟨⟨hclosed, hqueue.2, decide_eq_false (Ne.symm hqueue.1), hstage⟩, nofun⟩
  | execute hworker =>
    refine ⟨⟨hclosed, hqueue, rfl, hstage⟩, ?_⟩
    rw [hworker, Worker.isRunning] at hrunning
    simpa using hrunning
  | reply _ hcall =>
    refine ⟨⟨hclosed, hqueue, rfl, hset hcall ?_⟩, nofun⟩
    rintro rfl
    have hc := hstage _ hcall
    exact hc
  | leave => exact ⟨⟨hclosed, hqueue, rfl, hstage⟩, nofun⟩
  | close => exact ⟨⟨rfl, hqueue, hrunning, hstage⟩, nofun⟩
  | stop | finish => exact ⟨⟨hclosed, hqueue, hrunning, hstage⟩, nofun⟩

theorem late_trace (h : Trace budget s as u) (hs : Late k s) : Late k u ∧ .execute k ∉ as := by
  obtain ⟨hu, has⟩ := h.keep late_step hs
  exact ⟨hu, fun hmem => has _ hmem rfl⟩

/-- A call is late if it comes after an attempt to stop the runner has returned. -/
theorem late_of_stopped (h : Trace budget {} as s) (hstop : true ∈ s.stops)
    (hk : s.calls.length ≤ k) : Late k s ∧ .execute k ∉ as := by
  have hpending : s.pending k + as.count (.execute k) ≤ 1 := pending_trace h k
  have hnone : s.calls[k]? = none := List.getElem?_eq_none hk
  have hunsubmitted : isUnsubmitted s.calls k = true := by rw [isUnsubmitted, hnone]; rfl
  -- The request is where all requests start, so it is nowhere else.
  rw [State.pending, hunsubmitted, Bool.toNat_true] at hpending
  have hqueue : (s.queue.map Job.ticket).count k = 0 := by omega
  have hrunning : (s.worker.isRunning k).toNat = 0 := by omega
  have hcount : as.count (.execute k) = 0 := by omega
  refine ⟨⟨(sound_trace h).stops hstop, List.count_eq_zero.mp hqueue, by simpa using hrunning, ?_⟩,
    List.count_eq_zero.mp hcount⟩
  intro c hc
  rw [hnone] at hc
  cases hc

/-- All that a late call can do is to give up, and nothing keeps it from that. -/
theorem refuse_of_late (hs : Late k s) (hcall : s.calls[k]? = some c)
    (hstage : c.stage = .arriving) :
    (∃ v, Step budget s (.refuse k) v ∧
      v.calls[k]? = some { c with stage := .returned Trial.stopped }) ∧
    ∀ a v, Step budget s a v → a.caller? = some k → a = .refuse k := by
  refine ⟨⟨_, .refuse hcall (by rw [hstage]; rfl) hs.closed, ?_⟩, fun a v h ha => ?_⟩
  · rw [getElem?_set_call hcall, if_pos rfl]
  · cases h with
    | refuse => exact congrArg Action.refuse (Option.some.inj ha)
    | pass _ _ hopen => exact absurd (hs.closed.symm.trans hopen) (by decide)
    | submit hcall' hoffering =>
      cases ha
      rw [Option.some.inj (hcall'.symm.trans hcall), hstage] at hoffering
      cases hoffering
    | collect hcall' hwaiting =>
      cases ha
      rw [Option.some.inj (hcall'.symm.trans hcall), hstage] at hwaiting
      cases hwaiting
    | _ => cases ha

/-- The worker always finds room for its reply. -/
theorem exists_reply {t : Trial} (h : Trace budget {} as s) (hworker : s.worker = .replying k t) :
    ∃ v, Step budget s (.reply k) v := by
  have hpending : s.pending k + as.count (.execute k) ≤ 1 := pending_trace h k
  have hreplies : s.replies k ≤ 0 + as.count (.execute k) := replies_trace h k
  obtain ⟨r, hr, -⟩ := (sound_trace h).replying k t hworker
  rw [State.requests, List.getElem?_map] at hr
  obtain ⟨c, hcall, -⟩ := Option.map_eq_some_iff.mp hr
  have hroom : isReplied s.calls k = false := by
    have hreplying : (s.worker.isReplying k).toNat = 1 := by simp [hworker, Worker.isReplying]
    rw [State.replies, hreplying] at hreplies
    exact Bool.toNat_eq_zero.mp (by omega)
  rw [isReplied, hcall] at hroom
  exact ⟨_, .reply hworker hcall (by simpa using hroom)⟩

/-- The law of the protocol. Take any steps of a runner, of any callers and of any attempts to stop
it, and the state at any time on the way. A call asks for what its caller asked for, and what it
returns is the trial of this very request, or a stopped trial. A request is executed at most once.
No call returns a stopped trial unless the runner was stopped, by an attempt that somebody made. A
call that comes after an attempt has returned is never executed; all that it can do is to return a
stopped trial, and this it can at any time. The worker always finds room for its reply. -/
theorem trials_of_calls (before : Trace budget {} as s) (after : Trace budget s bs u) :
    u.requests = (as ++ bs).filterMap Action.request? ∧
    (∀ c ∈ u.calls, ∀ t, c.stage = .returned t →
      t = c.request.trial budget ∨ t = Trial.stopped) ∧
    (∀ k, (as ++ bs).count (.execute k) ≤ 1) ∧
    (∀ c ∈ u.calls, c.stage = .returned Trial.stopped → u.isClosed = true ∧ u.stops ≠ []) ∧
    (true ∈ s.stops → ∀ k, s.calls.length ≤ k →
      .execute k ∉ as ++ bs ∧
      ∀ c, u.calls[k]? = some c → c.stage = .returned Trial.stopped ∨
        c.stage = .arriving ∧
        (∃ v, Step budget u (.refuse k) v ∧
          v.calls[k]? = some { c with stage := .returned Trial.stopped }) ∧
        ∀ a v, Step budget u a v → a.caller? = some k → a = .refuse k) ∧
    ∀ k t, u.worker = .replying k t → ∃ v, Step budget u (.reply k) v := by
  have h := before.append after
  have hsound := sound_trace h
  refine ⟨requests_trace h, fun c hc t ht => ?_, fun k => ?_, fun c hc ht => ?_, ?_,
    fun k t hworker => exists_reply h hworker⟩
  · exact ((hsound.calls c hc).returned t ht).imp_right And.left
  · have hpending : u.pending k + (as ++ bs).count (.execute k) ≤ 1 := pending_trace h k
    omega
  · rcases (hsound.calls c hc).returned _ ht with hown | ⟨-, hclosed⟩
    · exact absurd hown.symm (Trial.run_ne_stopped _ _ _ _)
    · exact ⟨hclosed, hsound.closed hclosed⟩
  · intro hstop k hk
    obtain ⟨hlate, has⟩ := late_of_stopped before hstop hk
    obtain ⟨hlate', hbs⟩ := late_trace after hlate
    refine ⟨by simp [has, hbs], fun c hc => ?_⟩
    rcases hlate'.stage c hc with harriving | hreturned
    · exact .inr ⟨harriving, refuse_of_late hlate' hc harriving⟩
    · exact .inl hreturned

/-- A request to print the character that is read. -/
def echo (c : Char) : Request where
  format := .char
  input := [c]
  program := [{ mnemonic := "read" }, { mnemonic := "print" }]

/-- Two calls, of which the second is served first, until the runner is stopped. -/
def untilStopped : List Action :=
  [.call (echo 'a'), .call (echo 'b'), .pass 0, .pass 1, .submit 1, .submit 0, .take, .execute 1,
    .reply 1, .stop, .stop, .close 1, .finish 0]

/-- After that, the second call finds its reply all the same, and the first gives up although the
worker has taken its request. A third call comes too late. -/
def sinceStopped : List Action :=
  [.call (echo 'c'), .collect 1, .take, .refuse 0, .execute 0, .refuse 2]

theorem exists_trace_untilStopped_sinceStopped :
    ∃ s u, Trace 10 {} untilStopped s ∧ Trace 10 s sinceStopped u ∧
      true ∈ s.stops ∧ s.calls.length = 2 ∧
      u.calls.map Call.stage = [.returned Trial.stopped, .returned { output := "b", steps := 2 },
        .returned Trial.stopped] ∧
      u.worker = .replying 0 { output := "a", steps := 2 } := by
  refine ⟨_, _,
    .cons (.call _) <| .cons (.call _) <| .cons (.pass rfl rfl rfl) <| .cons (.pass rfl rfl rfl) <|
      .cons (.submit rfl rfl (by decide)) <| .cons (.submit rfl rfl (by decide)) <|
      .cons (.take rfl rfl) <| .cons (@Step.execute _ _ ⟨1, echo 'b'⟩ rfl) <|
      .cons (.reply rfl rfl rfl) <| .cons .stop <| .cons .stop <| .cons (.close rfl rfl) <|
      .cons (.finish rfl rfl) .nil,
    .cons (.call _) <| .cons (.collect rfl rfl rfl) <| .cons (.take rfl rfl) <|
      .cons (.refuse rfl rfl rfl) <| .cons (@Step.execute _ _ ⟨0, echo 'a'⟩ rfl) <|
      .cons (.refuse rfl rfl rfl) .nil,
    by decide, rfl, by decide +kernel, by decide +kernel⟩

theorem trials_of_calls_stopped :
    ∃ s u, Trace 10 {} untilStopped s ∧ Trace 10 s sinceStopped u ∧ true ∈ s.stops ∧
      u.requests = [echo 'a', echo 'b', echo 'c'] ∧
      u.calls.map Call.stage = [.returned Trial.stopped, .returned { output := "b", steps := 2 },
        .returned Trial.stopped] ∧
      (∀ k, (untilStopped ++ sinceStopped).count (.execute k) ≤ 1) ∧
      (∀ c ∈ u.calls, c.stage = .returned Trial.stopped → u.isClosed = true ∧ u.stops ≠ []) ∧
      .execute 2 ∉ untilStopped ++ sinceStopped ∧ ∃ v, Step 10 u (.reply 0) v := by
  obtain ⟨s, u, before, after, hstop, hlength, hstages, hworker⟩ :=
    exists_trace_untilStopped_sinceStopped
  obtain ⟨hrequests, -, hcount, hstopped, hlate, hreply⟩ := trials_of_calls before after
  exact ⟨s, u, before, after, hstop, hrequests, hstages, hcount, hstopped,
    (hlate hstop 2 (Nat.le_of_eq hlength)).1, hreply 0 _ hworker⟩

end Runner

end Contour
