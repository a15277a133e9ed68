import Contour.Proofs.Machine.Table

/-!
# Runs in related worlds

The machine touches the world only through the channel. If a map between worlds takes reading and
writing on one channel to reading and writing on another (`Channel.Carries`), it takes each run on
the first to the run on the second (`runFrom_mapWorld`).

Two such maps are of use: the one that drops the record of a channel that keeps one
(`Recorded.carries_world`), so that recording changes no run, and the one that puts values in front
of the record (`Recorded.carries_after`), so that what has been written stays written
(`written_isPrefix_runFrom`).
-/

namespace Contour

variable {σ τ : Type}

/-- The map `f` takes the answers of the channel `c` to those of the channel `d`. -/
structure Channel.Carries (f : τ → σ) (c : Channel τ) (d : Channel σ) : Prop where
  read (world : τ) : d.read (f world) = Prod.map id f (c.read world)
  write (v : Int) (world : τ) : d.write v (f world) = Prod.map id f (c.write v world)

namespace Machine

/-- The machine with another world. -/
def mapWorld (f : τ → σ) (m : Machine τ) : Machine σ := ⟨m.stack, m.zero, m.ip, f m.world⟩

/-- What an instruction does, with another world. -/
def Progress.mapWorld (f : τ → σ) : Progress τ → Progress σ
  | .next m => .next (m.mapWorld f)
  | .fault e m => .fault e (m.mapWorld f)

@[simp] theorem Progress.mapWorld_next (f : τ → σ) (m : Machine τ) :
    (Progress.next m).mapWorld f = .next (m.mapWorld f) := rfl

/-- A run with another world. -/
def Run.mapWorld (f : τ → σ) (r : Run τ) : Run σ := ⟨r.ending, r.steps, r.machine.mapWorld f⟩

variable {f : τ → σ} {c : Channel τ} {d : Channel σ}

/-! ## Input and output -/

theorem printValues_mapWorld (h : c.Carries f d) (k : Nat) (m : Machine τ) :
    printValues d k (m.mapWorld f) = Prod.map id (mapWorld f) (printValues c k m) := by
  induction k generalizing m with
  | zero => rfl
  | succ k ih =>
    obtain ⟨stack, zero, ip, world⟩ := m
    cases stack with
    | nil => rfl
    | cons v rest =>
      simp only [printValues, mapWorld, h.write]
      generalize c.write v world = answer
      obtain ⟨e | _, world⟩ := answer
      · rfl
      · exact ih ⟨rest, v == 0, ip, world⟩

theorem readValues_mapWorld (h : c.Carries f d) (k : Nat) (m : Machine τ) :
    readValues d k (m.mapWorld f) = Prod.map id (mapWorld f) (readValues c k m) := by
  induction k generalizing m with
  | zero => rfl
  | succ k ih =>
    obtain ⟨stack, zero, ip, world⟩ := m
    simp only [readValues, mapWorld, h.read]
    generalize c.read world = answer
    obtain ⟨e | v, world⟩ := answer
    · rfl
    · exact ih ⟨v :: stack, v == 0, ip, world⟩

theorem afterChannel_mapWorld (i : Instruction) (position : Int)
    (result : Except ChannelError Unit × Machine τ) :
    afterChannel i position (Prod.map id (mapWorld f) result) =
      (afterChannel i position result).mapWorld f := by
  obtain ⟨_ | _, m⟩ := result <;> rfl

/-! ## Steps -/

theorem binary?_mapWorld (op : Opcode) (top below : Int) (g : Int → Int → Option Int)
    (m : Machine τ) :
    perform.afterDivision ((m.mapWorld f).binary? op top below g) =
      (perform.afterDivision (m.binary? op top below g)).mapWorld f := by
  simp only [binary?, mapWorld]
  split <;> rfl

theorem perform_mapWorld (h : c.Carries f d) (n : Nat) (i : Instruction) (op : Opcode) (arg : Int)
    (m : Machine τ) :
    perform d n i op arg (m.mapWorld f) = (perform c n i op arg m).mapWorld f := by
  cases op with
  | print => exact (congrArg _ (printValues_mapWorld h _ m)).trans (afterChannel_mapWorld ..)
  | read => exact (congrArg _ (readValues_mapWorld h _ m)).trans (afterChannel_mapWorld ..)
  | div => exact binary?_mapWorld ..
  | mod => exact binary?_mapWorld ..
  | pow => exact binary?_mapWorld ..
  | jmpz | jmpnz =>
    obtain ⟨stack, zero, ip, world⟩ := m
    cases zero <;> rfl
  | place | pick =>
    obtain ⟨stack, zero, ip, world⟩ := m
    cases stack <;> simp only [perform, mapWorld, Progress.mapWorld_next, advance]
  | pop =>
    simp only [perform, apply_ite (Progress.mapWorld f), Progress.mapWorld_next]
    rfl
  | copy | push | add | sub | mul | abs => rfl

theorem step_mapWorld (h : c.Carries f d) (n : Nat) (i : Instruction) (m : Machine τ) :
    step d n i (m.mapWorld f) = (step c n i m).mapWorld f := by
  simp only [step]
  cases i.opcode? with
  | none => rfl
  | some op => exact perform_mapWorld h ..

/-! ## Runs -/

/-- A map of worlds that carries one channel to another carries its runs. -/
theorem runFrom_mapWorld (h : c.Carries f d) (program : Array Instruction)
    (limit fuel steps : Nat) (m : Machine τ) :
    runFrom d program limit fuel steps (m.mapWorld f) =
      (runFrom c program limit fuel steps m).mapWorld f := by
  induction fuel generalizing steps m with
  | zero => rfl
  | succ fuel ih =>
    have hcurrent : current? program (m.mapWorld f) = current? program m := rfl
    simp only [runFrom, hcurrent]
    cases current? program m with
    | none => rfl
    | some i =>
      by_cases hlimit : 0 < limit ∧ limit ≤ steps
      · simp only [if_pos hlimit]
        rfl
      · simp only [if_neg hlimit, step_mapWorld h]
        cases step c program.size i m with
        | next m' => exact ih (steps + 1) m'
        | fault e m' => rfl

theorem execute_mapWorld (h : c.Carries f d) (program : List Instruction) (limit : Nat)
    (world : τ) :
    execute d program limit (f world) = (execute c program limit world).mapWorld f :=
  runFrom_mapWorld h program.toArray limit _ 0 (start world)

end Machine

/-! ## Records -/

namespace Recorded

/-- The record that starts now. -/
def fresh (world : σ) : Recorded σ := { world }

/-- The record, in front of which these values were written. -/
def after (values : List Int) (r : Recorded σ) : Recorded σ :=
  { r with written := values ++ r.written }

/-- Recording changes no answer. -/
theorem carries_world (channel : Channel σ) :
    channel.recorded.Carries Recorded.world channel where
  read r := by
    rw [Channel.recorded_read]
    rcases channel.read r.world with ⟨_ | _, _⟩ <;> rfl
  write v r := by
    rw [Channel.recorded_write]
    rcases channel.write v r.world with ⟨_ | _, _⟩ <;> rfl

/-- What was written earlier changes no answer. -/
theorem carries_after (channel : Channel σ) (values : List Int) :
    channel.recorded.Carries (after values) channel.recorded where
  read r := by
    rw [Channel.recorded_read, Channel.recorded_read, after]
    rcases channel.read r.world with ⟨_ | _, _⟩ <;> rfl
  write v r := by
    rw [Channel.recorded_write, Channel.recorded_write, after]
    rcases channel.write v r.world with ⟨_ | _, _⟩
    · rfl
    · simp [after]

end Recorded

namespace Machine

/-- What has been written stays written, as the run goes on. -/
theorem written_isPrefix_runFrom (channel : Channel σ) (program : Array Instruction)
    (limit fuel steps : Nat) (m : Machine (Recorded σ)) :
    m.world.written <+:
      (runFrom channel.recorded program limit fuel steps m).machine.world.written := by
  -- The run goes on as it would after a record in which nothing is written yet.
  let m₀ : Machine (Recorded σ) := { m with world := { m.world with written := [] } }
  have hm : m₀.mapWorld (Recorded.after m.world.written) = m := by
    simp [m₀, mapWorld, Recorded.after]
  have hrun := runFrom_mapWorld (Recorded.carries_after channel m.world.written) program limit fuel
    steps m₀
  rw [hm] at hrun
  rw [hrun]
  exact List.prefix_append _ _

end Machine

end Contour
