import Contour.Proofs.Machine.World

/-!
# Runs with a budget

A limit on the number of steps only cuts a run short. `watch` is the run without a limit, seen for a
number of instructions. A run with a limit is what is seen of it up to the limit, and only its
ending may differ (`execute_eq_close_watch`): where the run would have gone on, it fails.

A run that is seen for longer goes on from where it was (`runFrom_add`), and as long as the limit is
not reached it plays no part (`runFrom_of_le_limit`).
-/

namespace Contour.Machine

variable {σ : Type}

/-! ## Going on -/

/-- Goes on with a run for `fuel` more instructions, if it has not ended. -/
def Run.resume (channel : Channel σ) (program : Array Instruction) (limit fuel : Nat)
    (r : Run σ) : Run σ :=
  if r.ending = .unfinished then runFrom channel program limit fuel r.steps r.machine else r

theorem Run.resume_of_ended {r : Run σ} (h : r.ending ≠ .unfinished) (channel : Channel σ)
    (program : Array Instruction) (limit fuel : Nat) :
    r.resume channel program limit fuel = r := if_neg h

/-- A run that is watched for longer goes on from where it was. -/
theorem runFrom_add (channel : Channel σ) (program : Array Instruction) (limit n fuel steps : Nat)
    (m : Machine σ) :
    runFrom channel program limit (n + fuel) steps m =
      (runFrom channel program limit n steps m).resume channel program limit fuel := by
  induction n generalizing steps m with
  | zero => rw [Nat.zero_add]; rfl
  | succ n ih =>
    rw [Nat.succ_add]
    simp only [runFrom]
    cases current? program m with
    | none => rfl
    | some i =>
      by_cases hlimit : 0 < limit ∧ limit ≤ steps
      · simp only [if_pos hlimit]
        rfl
      · simp only [if_neg hlimit]
        cases step channel program.size i m with
        | next m' => exact ih (steps + 1) m'
        | fault f m' => rfl

/-- A limit that is not reached plays no part. -/
theorem runFrom_of_le_limit (channel : Channel σ) (program : Array Instruction)
    {limit fuel steps : Nat} (h : steps + fuel ≤ limit) (m : Machine σ) :
    runFrom channel program limit fuel steps m = runFrom channel program 0 fuel steps m := by
  induction fuel generalizing steps m with
  | zero => rfl
  | succ fuel ih =>
    have hreached : ¬ (0 < limit ∧ limit ≤ steps) := by omega
    have hnone : ¬ (0 < 0 ∧ 0 ≤ steps) := by omega
    simp only [runFrom]
    cases current? program m with
    | none => rfl
    | some i =>
      simp only [if_neg hreached, if_neg hnone]
      cases step channel program.size i m with
      | next m' => exact ih (by omega : steps + 1 + fuel ≤ limit) m'
      | fault f m' => rfl

/-- The steps of a run are counted from those before it, no more than it is watched for, and all of
these if it has not ended. -/
theorem steps_runFrom (channel : Channel σ) (program : Array Instruction) (limit fuel steps : Nat)
    (m : Machine σ) :
    let r := runFrom channel program limit fuel steps m
    steps ≤ r.steps ∧ r.steps ≤ steps + fuel ∧
      (r.ending = .unfinished → r.steps = steps + fuel) := by
  induction fuel generalizing steps m with
  | zero => exact ⟨Nat.le_refl _, Nat.le_refl _, fun _ => rfl⟩
  | succ fuel ih =>
    simp only [runFrom]
    cases current? program m with
    | none => simp
    | some i =>
      by_cases hlimit : 0 < limit ∧ limit ≤ steps
      · simp [hlimit]
      · simp only [if_neg hlimit]
        cases step channel program.size i m with
        | next m' =>
          obtain ⟨hle, hge, hall⟩ := ih (steps + 1) m'
          dsimp only
          exact ⟨by omega, by omega, fun h => by rw [hall h]; omega⟩
        | fault f m' => simp

/-! ## The run without a limit -/

/-- The run of a program without a limit, watched for `fuel` instructions. -/
def watch (channel : Channel σ) (program : List Instruction) (world : σ) (fuel : Nat) : Run σ :=
  runFrom channel program.toArray 0 fuel 0 (start world)

variable (channel : Channel σ) (program : List Instruction) (world : σ)

theorem watch_add (n fuel : Nat) :
    watch channel program world (n + fuel) =
      (watch channel program world n).resume channel program.toArray 0 fuel :=
  runFrom_add ..

theorem steps_watch_le (fuel : Nat) : (watch channel program world fuel).steps ≤ fuel := by
  have h := (steps_runFrom channel program.toArray 0 fuel 0 (start world)).2.1
  rwa [Nat.zero_add] at h

theorem steps_watch_of_unfinished {fuel : Nat}
    (h : (watch channel program world fuel).ending = .unfinished) :
    (watch channel program world fuel).steps = fuel := by
  have hsteps := (steps_runFrom channel program.toArray 0 fuel 0 (start world)).2.2 h
  rwa [Nat.zero_add] at hsteps

variable {channel program world}

/-- Once it has ended, a run stays as it is. -/
theorem watch_of_ended {n fuel : Nat} (h : (watch channel program world n).ending ≠ .unfinished)
    (hle : n ≤ fuel) : watch channel program world fuel = watch channel program world n := by
  obtain ⟨k, rfl⟩ := Nat.exists_eq_add_of_le hle
  rw [watch_add, Run.resume_of_ended h]

/-- A run that ends after at most `n` steps has ended when it is watched for one more
instruction. -/
theorem watch_succ_of_ended {n fuel : Nat}
    (hended : (watch channel program world fuel).ending ≠ .unfinished)
    (hsteps : (watch channel program world fuel).steps ≤ n) :
    watch channel program world (n + 1) = watch channel program world fuel := by
  by_cases h : (watch channel program world (n + 1)).ending = .unfinished
  · -- Then all its steps were taken, and the run is longer than it is said to be.
    exfalso
    have hall := steps_watch_of_unfinished channel program world h
    rcases Nat.le_total fuel (n + 1) with hle | hle
    · rw [watch_of_ended hended hle] at h
      exact hended h
    · obtain ⟨k, rfl⟩ := Nat.exists_eq_add_of_le hle
      rw [watch_add, Run.resume, if_pos h] at hsteps
      have hmore := (steps_runFrom channel program.toArray 0 k
        (watch channel program world (n + 1)).steps (watch channel program world (n + 1)).machine).1
      omega
  · rcases Nat.le_total fuel (n + 1) with hle | hle
    · exact watch_of_ended hended hle
    · exact (watch_of_ended h hle).symm

/-! ## The run with a limit -/

/-- Ends a run at a limit: if it would go on, it fails. -/
def Run.close (program : Array Instruction) (limit : Nat) (r : Run σ) : Run σ :=
  if r.ending = .unfinished then
    { r with ending := if (current? program r.machine).isSome then .failed (.limit limit)
                       else .finished }
  else r

/-- The run with a limit is the run without one, watched up to the limit and ended there. -/
theorem execute_eq_close_watch {limit : Nat} (h : 0 < limit) :
    execute channel program limit world =
      (watch channel program world limit).close program.toArray limit := by
  have hfuel : execute channel program limit world =
      runFrom channel program.toArray limit (limit + 1) 0 (start world) := by
    rw [execute, if_neg (Nat.pos_iff_ne_zero.mp h)]
  have hwatch : runFrom channel program.toArray limit limit 0 (start world) =
      watch channel program world limit :=
    runFrom_of_le_limit channel program.toArray (Nat.le_of_eq (Nat.zero_add _)) (start world)
  rw [hfuel, runFrom_add, hwatch, Run.resume, Run.close]
  by_cases hrun : (watch channel program world limit).ending = .unfinished
  · have hsteps := steps_watch_of_unfinished channel program world hrun
    rw [if_pos hrun, if_pos hrun]
    generalize watch channel program world limit = r at hsteps ⊢
    subst hsteps
    simp only [runFrom]
    cases current? program.toArray r.machine with
    | none => rfl
    | some i => simp [h]
  · rw [if_neg hrun, if_neg hrun]

/-- What a run that has not ended does next. -/
theorem watch_succ {n : Nat} (h : (watch channel program world n).ending = .unfinished) :
    watch channel program world (n + 1) =
      runFrom channel program.toArray 0 1 n (watch channel program world n).machine := by
  rw [watch_add, Run.resume, if_pos h, steps_watch_of_unfinished channel program world h]

/-- A run that ends within the limit is the same with the limit. -/
theorem execute_of_ended {limit fuel : Nat} (hlimit : 0 < limit)
    (hended : (watch channel program world fuel).ending ≠ .unfinished)
    (hsteps : (watch channel program world fuel).steps ≤ limit) :
    execute channel program limit world = watch channel program world fuel := by
  have hseen := watch_succ_of_ended hended hsteps
  rw [execute_eq_close_watch hlimit, Run.close]
  by_cases hrun : (watch channel program world limit).ending = .unfinished
  · -- Nothing but the look at the next instruction is left to do.
    have hall := steps_watch_of_unfinished channel program world hrun
    rw [if_pos hrun]
    rw [watch_succ hrun, runFrom] at hseen
    cases hcurrent : current? program.toArray (watch channel program world limit).machine with
    | none =>
      simp only [hcurrent] at hseen
      rw [← hseen]
      simp [hall]
    | some i =>
      simp only [hcurrent, Nat.lt_irrefl, false_and, if_false] at hseen
      cases hstep : step channel program.toArray.size i
          (watch channel program world limit).machine with
      | next m' =>
        simp only [hstep, runFrom] at hseen
        exact absurd (hseen ▸ rfl) hended
      | fault f m' =>
        simp only [hstep] at hseen
        rw [← hseen] at hsteps
        exact absurd hsteps (Nat.not_succ_le_self limit)
  · rw [if_neg hrun, ← hseen, watch_of_ended hrun (Nat.le_succ limit)]

/-- A run that does not end within the limit is cut off there. -/
theorem execute_of_not_ended {limit : Nat} (hlimit : 0 < limit)
    (h : ∀ fuel, (watch channel program world fuel).ending ≠ .unfinished →
      limit < (watch channel program world fuel).steps) :
    ∃ m, watch channel program world limit = ⟨.unfinished, limit, m⟩ ∧
      execute channel program limit world = ⟨.failed (.limit limit), limit, m⟩ := by
  have hrun : (watch channel program world limit).ending = .unfinished := by
    by_contra hended
    exact absurd (h limit hended) (Nat.not_lt.mpr (steps_watch_le channel program world limit))
  have hall := steps_watch_of_unfinished channel program world hrun
  have hnext := watch_succ hrun
  have hmore : (current? program.toArray (watch channel program world limit).machine).isSome := by
    rw [Option.isSome_iff_ne_none]
    intro hnone
    simp only [runFrom, hnone] at hnext
    have hlonger := h (limit + 1) (by simp [hnext])
    rw [hnext] at hlonger
    exact absurd hlonger (Nat.lt_irrefl limit)
  generalize hseen : watch channel program world limit = r at hrun hall hmore
  obtain ⟨ending, steps, m⟩ := r
  cases hrun
  cases hall
  refine ⟨m, rfl, ?_⟩
  rw [execute_eq_close_watch hlimit, hseen, Run.close, if_pos rfl, if_pos hmore]

/-! ## Output -/

/-- The machine that a run with a limit leaves is the one seen at the limit. -/
theorem machine_execute {limit : Nat} (h : 0 < limit) :
    (execute channel program limit world).machine =
      (watch channel program world limit).machine := by
  rw [execute_eq_close_watch h, Run.close]
  split <;> rfl

/-- The values that a run hands to the writer, and the writer takes. -/
def written (channel : Channel σ) (program : List Instruction) (limit : Nat) (world : σ) :
    List Int :=
  (execute channel.recorded program limit (.fresh world)).machine.world.written

theorem written_isPrefix {limit limit' : Nat} (h : 0 < limit) (hle : limit ≤ limit') :
    written channel program limit world <+: written channel program limit' world := by
  obtain ⟨k, rfl⟩ := Nat.exists_eq_add_of_le hle
  rw [written, written, machine_execute h, machine_execute (Nat.lt_of_lt_of_le h hle), watch_add,
    Run.resume]
  split
  · exact written_isPrefix_runFrom ..
  · exact List.prefix_rfl

/-- A limit only cuts a run short. If the run without a limit ends within the limit, the run with it
is the same. Otherwise the run with the limit fails there, and leaves the machine and the world as
the run without one has them after that many instructions. So with a greater limit the output begins
with the same values, and a run that did not reach its limit does not change. -/
theorem execute_truncates (channel : Channel σ) (program : List Instruction) (world : σ)
    {limit : Nat} (hlimit : 0 < limit) :
    (∀ fuel, (watch channel program world fuel).ending ≠ .unfinished →
      (watch channel program world fuel).steps ≤ limit →
        execute channel program limit world = watch channel program world fuel) ∧
    ((∀ fuel, (watch channel program world fuel).ending ≠ .unfinished →
        limit < (watch channel program world fuel).steps) →
      ∃ m, watch channel program world limit = ⟨.unfinished, limit, m⟩ ∧
        execute channel program limit world = ⟨.failed (.limit limit), limit, m⟩) ∧
    execute channel program 0 world = watch channel program world patience ∧
    (execute channel.recorded program limit (.fresh world)).mapWorld Recorded.world =
      execute channel program limit world ∧
    ∀ limit', limit ≤ limit' →
      written channel program limit world <+: written channel program limit' world ∧
      ((execute channel program limit world).ending ≠ .failed (.limit limit) →
        execute channel program limit' world = execute channel program limit world) := by
  refine ⟨fun fuel => execute_of_ended hlimit, execute_of_not_ended hlimit, rfl,
    (execute_mapWorld (Recorded.carries_world channel) program limit (.fresh world)).symm,
    fun limit' hle => ⟨written_isPrefix hlimit hle, fun hending => ?_⟩⟩
  by_cases h : ∃ fuel, (watch channel program world fuel).ending ≠ .unfinished ∧
      (watch channel program world fuel).steps ≤ limit
  · obtain ⟨fuel, hended, hsteps⟩ := h
    rw [execute_of_ended hlimit hended hsteps,
      execute_of_ended (Nat.lt_of_lt_of_le hlimit hle) hended (Nat.le_trans hsteps hle)]
  · have hlonger : ∀ fuel, (watch channel program world fuel).ending ≠ .unfinished →
        limit < (watch channel program world fuel).steps := by
      intro fuel hended
      by_contra hsteps
      exact h ⟨fuel, hended, Nat.not_lt.mp hsteps⟩
    obtain ⟨m, -, hcut⟩ := execute_of_not_ended hlimit hlonger
    rw [hcut] at hending
    exact absurd rfl hending

/-- A program of two instructions, with room for both and with room for one of them. -/
theorem execute_truncates_push_print :
    let program : List Instruction :=
      [{ mnemonic := "push", argument := some 5 }, { mnemonic := "print", argument := some 1 }]
    (0 < 2 ∧ (watch Channel.silent program () 3).ending ≠ .unfinished ∧
      (watch Channel.silent program () 3).steps ≤ 2) ∧
    execute Channel.silent program 2 () = watch Channel.silent program () 3 ∧
    (execute Channel.silent program 1 ()).ending = .failed (.limit 1) ∧
    written Channel.silent program 1 () <+: written Channel.silent program 2 () := by
  intro program
  have hended : (watch Channel.silent program () 3).ending ≠ .unfinished := by decide
  have hsteps : (watch Channel.silent program () 3).steps ≤ 2 := by decide
  refine ⟨⟨by decide, hended, hsteps⟩, ?_, by decide, ?_⟩
  · exact (execute_truncates Channel.silent program () (by decide)).1 3 hended hsteps
  · exact ((execute_truncates Channel.silent program () (by decide)).2.2.2.2 2 (by decide)).1

end Contour.Machine
