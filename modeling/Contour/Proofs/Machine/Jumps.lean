import Contour.Proofs.Machine.Steps

/-!
# Where jumps lead

A jump does not lead to itself, and leaves the program by one position at most (`ip_jump_ne`,
`ip_jump_cases`). The same holds of every instruction that does not fail (`ip_of_step_bounds`), so
that only a program that jumps backward can execute an instruction twice.

In a program without backward jumps (`IsForward`) the instruction pointer goes up by one at least
with each instruction (`Steps.ip_add_le`). Such a program ends when there are no more positions for
it (`watch_of_isForward`); `forward_run_ends` is the whole statement.
-/

namespace Contour.Machine

variable {σ : Type}

/-! ## Jumps -/

/-- Where a jump leads: next to the program on either side, or to its target. -/
theorem ip_jump_cases (m : Machine σ) (k : Int64) (n : Nat) :
    (m.jump k n).ip = -1 ∨ (m.jump k n).ip = n ∨
      0 ≤ (m.jump k n).ip ∧ (m.jump k n).ip ≤ n ∧
        (m.jump k n).ip = (Int64.ofInt m.ip + if k == 0 then 1 else k).toInt := by
  simp only [jump]
  generalize Int64.ofInt m.ip + (if k == 0 then 1 else k) = target
  by_cases hlow : target < 0
  · exact .inl (if_pos hlow)
  by_cases hhigh : Int64.ofNat n < target
  · rw [if_neg hlow, if_pos hhigh]
    exact .inr (.inl rfl)
  · rw [if_neg hlow, if_neg hhigh]
    rw [Int64.lt_iff_toInt_lt] at hlow hhigh
    have h0 : (0 : Int64).toInt = 0 := rfl
    have hword := target.toInt_lt
    refine .inr (.inr ⟨by omega, ?_, rfl⟩)
    -- A target is a word, so it is no greater than a length that is none.
    by_cases hn : n < 2 ^ 63
    · rw [Int64.toInt_ofNat_of_lt hn] at hhigh
      omega
    · omega

/-- A jump does not lead to itself. -/
theorem ip_jump_ne {m : Machine σ} {n : Nat} (h0 : 0 ≤ m.ip) (hip : m.ip < n) (k : Int64) :
    (m.jump k n).ip ≠ m.ip := by
  intro hsame
  rcases ip_jump_cases m k n with h | h | ⟨-, -, h⟩
  · omega
  · omega
  · -- The target has the word of the pointer, so that the offset would have to be zero.
    have hword := congrArg Int64.ofInt (h.symm.trans hsame)
    rw [Int64.ofInt_toInt, Int64.add_eq_left] at hword
    by_cases hk : k = 0 <;> simp [hk] at hword

/-- A jump by a count that is not negative leads on. Where its target would be no word it leaves the
program instead. -/
theorem lt_ip_jump {m : Machine σ} {n : Nat} (h0 : 0 ≤ m.ip) (hip : m.ip < n) (hn : n < 2 ^ 63)
    {k : Int} (hk : 0 ≤ k) :
    m.ip < (m.jump (toCount k) n).ip ∨ (m.jump (toCount k) n).ip = -1 := by
  have hcount := toInt_toCount k
  have hpointer : (Int64.ofInt m.ip).toInt = m.ip := Int64.toInt_ofInt_of_le (by omega) (by omega)
  have hoffset : 1 ≤ (if toCount k == 0 then 1 else toCount k).toInt ∧
      (if toCount k == 0 then 1 else toCount k).toInt ≤ 2 ^ 62 := by
    by_cases hzero : toCount k = 0
    · simp [hzero]
    · have hne : (toCount k).toInt ≠ 0 := fun h => hzero (Int64.toInt_inj.mp h)
      simp only [beq_iff_eq, if_neg hzero]
      omega
  rcases ip_jump_cases m (toCount k) n with h | h | ⟨hlow, -, h⟩
  · exact .inr h
  · exact .inl (by omega)
  · refine .inl ?_
    rw [h, Int64.toInt_add, hpointer] at hlow ⊢
    generalize (if toCount k == 0 then 1 else toCount k).toInt = offset at hoffset hlow ⊢
    by_cases hfits : m.ip + offset < 2 ^ 63
    · rw [Int.bmod_eq_of_le (by omega) (by omega)]
      omega
    · rw [Int.bmod] at hlow
      omega

/-- A jump by nothing is a jump by one. -/
theorem step_jump_zero (channel : Channel σ) (n : Nat) {i : Instruction} {op : Opcode}
    (hop : i.opcode? = some op) (hjump : op.isJump = true) (m : Machine σ) :
    step channel n { i with argument := some 0 } m =
      step channel n { i with argument := some 1 } m := by
  have hop' (k : Int) : ({ i with argument := some k } : Instruction).opcode? = some op := hop
  have hsame : m.jump (toCount 0) n = m.jump (toCount 1) n := rfl
  simp only [step, hop', Option.getD_some]
  cases op with
  | jmpz => simp only [perform, hsame]
  | jmpnz => simp only [perform, hsame]
  | _ => cases hjump

/-! ## Steps -/

variable {channel : Channel σ} {program : List Instruction} {world : σ} {k : Nat}
  {m m' : Machine σ} {i : Instruction}

/-- A step that does not fail moves the pointer, at most to just outside the program. -/
theorem ip_of_step_bounds (hi : current? program.toArray m = some i)
    (h : step channel program.length i m = .next m') :
    m'.ip ≠ m.ip ∧ -1 ≤ m'.ip ∧ m'.ip ≤ program.length := by
  obtain ⟨h0, hip⟩ := ip_of_current? hi
  rw [List.size_toArray] at hip
  rcases ip_of_step h with hnext | ⟨op, -, -, rfl⟩
  · omega
  · refine ⟨ip_jump_ne h0 hip _, ?_⟩
    rcases ip_jump_cases m (toCount (i.argument.getD op.defaultArgument)) program.length with
      h | h | ⟨h, h', -⟩ <;> omega

theorem Steps.ip_bounds (h : Steps channel program k (start world) m) :
    -1 ≤ m.ip ∧ m.ip ≤ program.length := by
  cases h with
  | refl => exact ⟨show (-1 : Int) ≤ 0 by decide, Int.natCast_nonneg _⟩
  | step _ hi hstep => exact (ip_of_step_bounds hi hstep).2

/-! ## Programs without backward jumps -/

/-- No jump of the program leads back: the argument of each, written or meant, is not negative. -/
def IsForward (program : List Instruction) : Prop :=
  ∀ i ∈ program, ∀ op ∈ i.opcode?, op.isJump = true → 0 ≤ i.argument.getD op.defaultArgument

instance (program : List Instruction) : Decidable (IsForward program) :=
  inferInstanceAs (Decidable (∀ i ∈ program, ∀ op ∈ i.opcode?, op.isJump = true →
    0 ≤ i.argument.getD op.defaultArgument))

theorem IsForward.lt_ip_of_step (hforward : IsForward program) (hlength : program.length < 2 ^ 63)
    (hi : current? program.toArray m = some i)
    (h : step channel program.length i m = .next m') : m.ip < m'.ip ∨ m'.ip = -1 := by
  obtain ⟨h0, hip⟩ := ip_of_current? hi
  rw [List.size_toArray] at hip
  rcases ip_of_step h with hnext | ⟨op, hop, hjump, rfl⟩
  · exact .inl (by omega)
  · exact lt_ip_jump h0 hip hlength (hforward i (mem_of_current? hi) op hop hjump)

/-- As long as such a program runs, its pointer goes up. -/
theorem Steps.ip_add_le (h : Steps channel program k m m') (hforward : IsForward program)
    (hlength : program.length < 2 ^ 63) (h0 : 0 ≤ m'.ip) : m.ip + k ≤ m'.ip := by
  induction h with
  | refl => simp
  | @step k m m' m'' i _ hi hstep ih =>
    have hbefore := ih (ip_of_current? hi).1
    have hup := hforward.lt_ip_of_step hlength hi hstep
    omega

/-- No position comes up twice. -/
theorem Steps.eq_of_ip_eq {j : Nat} (hj : Steps channel program j (start world) m)
    (hk : Steps channel program k (start world) m') (hforward : IsForward program)
    (hlength : program.length < 2 ^ 63) (h0 : 0 ≤ m.ip) (hip : m.ip = m'.ip) : j = k := by
  rcases Nat.le_total j k with hle | hle
  · have hup := (hj.of_le hk hle).ip_add_le hforward hlength (hip ▸ h0)
    omega
  · have hup := (hk.of_le hj hle).ip_add_le hforward hlength h0
    omega

/-- The run of such a program is over after as many instructions as the program has. -/
theorem watch_of_isForward (hforward : IsForward program) (hlength : program.length < 2 ^ 63)
    (channel : Channel σ) (world : σ) :
    (watch channel program world (program.length + 1)).ending ≠ .unfinished ∧
      (watch channel program world (program.length + 1)).steps ≤ program.length := by
  by_cases hrun : (watch channel program world program.length).ending = .unfinished
  · -- The pointer has gone up all the way, and there is nothing left to execute.
    have hnone : current? program.toArray (watch channel program world program.length).machine =
        none := by
      by_contra hsome
      obtain ⟨i, hi⟩ := Option.ne_none_iff_exists'.mp hsome
      obtain ⟨h0, hip⟩ := ip_of_current? hi
      have hup := (steps_watch hrun).ip_add_le hforward hlength h0
      have hstart : (start world).ip = 0 := rfl
      rw [List.size_toArray] at hip
      omega
    rw [watch_succ hrun, runFrom, hnone]
    exact ⟨by simp, Nat.le_refl _⟩
  · rw [watch_of_ended hrun (Nat.le_succ _)]
    exact ⟨hrun, steps_watch_le channel program world _⟩

/-- Only at its limit does a run fail with that fault. -/
theorem watch_ne_limit (channel : Channel σ) (program : List Instruction) (world : σ)
    (fuel limit : Nat) : (watch channel program world fuel).ending ≠ .failed (.limit limit) := by
  intro h
  rcases fault_of_runFrom h with ⟨hlimit, -⟩ | ⟨i, -, m, m', hstep⟩
  · exact absurd hlimit (Nat.lt_irrefl 0)
  · rcases fault_of_step hstep with ⟨h, -⟩ | ⟨op, h⟩ | ⟨e, h⟩ <;> cases h

/-- Only backward jumps can loop. A step that does not fail moves the instruction pointer, and at
most to just outside the program; a jump by nothing is one by one. If no jump of the program leads
back, every run of it ends after as many steps as the program has instructions, or earlier, with or
without a limit that leaves room for them, and no instruction is executed twice. (The length of a
program is a word.) -/
theorem forward_run_ends (channel : Channel σ) (program : List Instruction) (world : σ) :
    (∀ k m, Steps channel program k (start world) m →
      -1 ≤ m.ip ∧ m.ip ≤ program.length ∧
        ∀ i m', current? program.toArray m = some i →
          step channel program.length i m = .next m' →
          m'.ip ≠ m.ip ∧ -1 ≤ m'.ip ∧ m'.ip ≤ program.length) ∧
    (∀ (i : Instruction) (op : Opcode) m, i.opcode? = some op → op.isJump = true →
      step channel program.length { i with argument := some 0 } m =
        step channel program.length { i with argument := some 1 } m) ∧
    (program.length < 2 ^ 63 → IsForward program →
      (∃ r : Run σ, r.ending ≠ .unfinished ∧ r.steps ≤ program.length ∧
        (∀ fuel, program.length < fuel → watch channel program world fuel = r) ∧
        ∀ limit, 0 < limit → program.length ≤ limit →
          execute channel program limit world = r) ∧
      (∀ limit, program.length ≤ limit → ∀ steps,
        (execute channel program limit world).ending ≠ .failed (.limit steps)) ∧
      ∀ j k m m', Steps channel program j (start world) m →
        Steps channel program k (start world) m' →
        (current? program.toArray m).isSome → m.ip = m'.ip → j = k) := by
  refine ⟨fun k m h => ⟨h.ip_bounds.1, h.ip_bounds.2, fun i m' => ip_of_step_bounds⟩,
    fun i op m hop hjump => step_jump_zero channel _ hop hjump m, fun hlength hforward => ?_⟩
  obtain ⟨hended, hsteps⟩ := watch_of_isForward hforward hlength channel world
  have hexecute (limit : Nat) (hlimit : 0 < limit) (hle : program.length ≤ limit) :=
    execute_of_ended hlimit hended (Nat.le_trans hsteps hle)
  refine ⟨⟨_, hended, hsteps, fun fuel hfuel => watch_of_ended hended hfuel, hexecute⟩,
    fun limit hle steps => ?_, fun j k m m' hj hk hm hip => ?_⟩
  · rcases Nat.eq_zero_or_pos limit with rfl | hlimit
    · exact watch_ne_limit channel program world patience steps
    · rw [hexecute limit hlimit hle]
      exact watch_ne_limit channel program world _ steps
  · obtain ⟨i, hi⟩ := Option.isSome_iff_exists.mp hm
    exact hj.eq_of_ip_eq hk hforward hlength (ip_of_current? hi).1 hip

/-- A jump by nothing, a jump beyond all words, and one that is left out. -/
theorem forward_run_ends_over_the_end :
    let program : List Instruction :=
      [{ mnemonic := "jmpz", argument := some 0 }, { mnemonic := "push", argument := some 3 },
        { mnemonic := "jmpnz", argument := some (2 ^ 70) }, { mnemonic := "jmpz" }]
    (program.length < 2 ^ 63 ∧ IsForward program) ∧
    (∃ r : Run Unit, r.ending ≠ .unfinished ∧ r.steps ≤ 4 ∧
      execute Channel.silent program 4 () = r) ∧
    (execute Channel.silent program 4 ()).steps = 3 ∧
    ∀ j k m m', Steps Channel.silent program j (start ()) m →
      Steps Channel.silent program k (start ()) m' →
      (current? program.toArray m).isSome → m.ip = m'.ip → j = k := by
  intro program
  have hlength : program.length < 2 ^ 63 := by decide
  have hforward : IsForward program := by decide +kernel
  obtain ⟨⟨r, hended, hsteps, -, hexecute⟩, -, honce⟩ :=
    (forward_run_ends Channel.silent program ()).2.2 hlength hforward
  exact ⟨⟨hlength, hforward⟩, ⟨r, hended, hsteps, hexecute 4 (by decide) (by decide)⟩,
    by decide +kernel, honce⟩

end Contour.Machine
