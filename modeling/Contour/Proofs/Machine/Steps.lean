import Contour.Proofs.Machine.Budget
import Contour.Proofs.Machine.Refinement

/-!
# Steps one after another

`Steps channel program k m m'` says that the machine `m` gets to `m'` by executing `k` instructions
of the program. A run passes through such machines (`Steps.runFrom_eq`, `steps_watch`), so that what
every instruction keeps holds as long as the program runs, and a run can be followed piece by piece.

What an instruction can do to the instruction pointer and how it can fail is said once, here
(`ip_of_step`, `fault_of_step`). A run fails at its limit or at one of its instructions
(`fault_of_runFrom`).
-/

namespace Contour.Machine

variable {σ : Type}

/-! ## One instruction -/

theorem ip_of_afterChannel {i : Instruction} {position : Int}
    {result : Except ChannelError Unit × Machine σ} {m' : Machine σ}
    (h : afterChannel i position result = .next m') : m'.ip = result.2.ip + 1 := by
  obtain ⟨_ | _, m⟩ := result <;> cases h
  rfl

theorem ip_of_binary? {m m' : Machine σ} {op : Opcode} {top below : Int}
    {f : Int → Int → Option Int}
    (h : perform.afterDivision (m.binary? op top below f) = .next m') : m'.ip = m.ip + 1 := by
  simp only [binary?] at h
  split at h <;> cases h
  rfl

/-- An operation that does not fail goes on to the next instruction, or it is a jump that is
taken. -/
theorem ip_of_perform {channel : Channel σ} {n : Nat} {i : Instruction} {op : Opcode} {arg : Int}
    {m m' : Machine σ} (h : perform channel n i op arg m = .next m') :
    m'.ip = m.ip + 1 ∨ op.isJump = true ∧ m' = m.jump (toCount arg) n := by
  cases op with
  | print =>
    refine .inl ((ip_of_afterChannel h).trans ?_)
    rw [printValues_eq_offer]
  | read =>
    refine .inl ((ip_of_afterChannel h).trans ?_)
    rw [readValues_eq_ask]
  | div => exact .inl (ip_of_binary? h)
  | mod => exact .inl (ip_of_binary? h)
  | pow => exact .inl (ip_of_binary? h)
  | jmpz =>
    simp only [perform, Progress.next.injEq] at h
    split at h <;> subst h
    · exact .inr ⟨rfl, rfl⟩
    · exact .inl rfl
  | jmpnz =>
    simp only [perform, Progress.next.injEq] at h
    split at h <;> subst h
    · exact .inl rfl
    · exact .inr ⟨rfl, rfl⟩
  | place | pick =>
    simp only [perform] at h
    split at h <;> rw [Progress.next.injEq] at h <;> subst h <;> exact .inl rfl
  | pop =>
    simp only [perform] at h
    split at h
    · cases h
      exact .inl rfl
    · split at h <;> cases h <;> exact .inl rfl
  | copy | push | add | sub | mul | abs =>
    simp only [perform, Progress.next.injEq] at h
    subst h
    exact .inl rfl

theorem ip_of_step {channel : Channel σ} {n : Nat} {i : Instruction} {m m' : Machine σ}
    (h : step channel n i m = .next m') :
    m'.ip = m.ip + 1 ∨ ∃ op, i.opcode? = some op ∧ op.isJump = true ∧
      m' = m.jump (toCount (i.argument.getD op.defaultArgument)) n := by
  rw [step] at h
  cases hop : i.opcode? with
  | none => simp [hop] at h
  | some op =>
    simp only [hop] at h
    rcases ip_of_perform h with hnext | ⟨hjump, hm⟩
    · exact .inl hnext
    · exact .inr ⟨op, rfl, hjump, hm⟩

/-- A known operation fails in a division or in the channel only. -/
theorem fault_of_perform {channel : Channel σ} {n : Nat} {i : Instruction} {op : Opcode} {arg : Int}
    {m m' : Machine σ} {f : Fault} (h : perform channel n i op arg m = .fault f m') :
    f = .division op ∨ ∃ e, f = .channel m.ip.toNat i e := by
  have hchannel {result : Except ChannelError Unit × Machine σ}
      (h : afterChannel i m.ip result = .fault f m') : ∃ e, f = .channel m.ip.toNat i e := by
    obtain ⟨e | _, _⟩ := result <;> cases h
    exact ⟨e, rfl⟩
  have hdivision {top below : Int} {g : Int → Int → Option Int}
      (h : perform.afterDivision (m.binary? op top below g) = .fault f m') : f = .division op := by
    simp only [binary?] at h
    split at h <;> cases h
    rfl
  cases op with
  | print => exact .inr (hchannel h)
  | read => exact .inr (hchannel h)
  | div => exact .inl (hdivision h)
  | mod => exact .inl (hdivision h)
  | pow => exact .inl (hdivision h)
  | place | pick =>
    simp only [perform] at h
    split at h <;> cases h
  | pop =>
    simp only [perform] at h
    split at h
    · cases h
    · split at h <;> cases h
  | copy | jmpz | jmpnz | push | add | sub | mul | abs => cases h

/-- How an instruction fails: it is unknown, or it fails as its operation does. -/
theorem fault_of_step {channel : Channel σ} {n : Nat} {i : Instruction} {m m' : Machine σ}
    {f : Fault} (h : step channel n i m = .fault f m') :
    f = .unknown i.mnemonic i.line ∧ i.opcode? = none ∨
      (∃ op, f = .division op) ∨ ∃ e, f = .channel m.ip.toNat i e := by
  rw [step] at h
  cases hop : i.opcode? with
  | none =>
    simp only [hop] at h
    cases h
    exact .inl ⟨rfl, rfl⟩
  | some op =>
    simp only [hop] at h
    exact .inr ((fault_of_perform h).imp_left fun hf => ⟨op, hf⟩)

theorem mem_of_current? {program : List Instruction} {m : Machine σ} {i : Instruction}
    (h : current? program.toArray m = some i) : i ∈ program := by
  rw [current?, Option.ite_none_left_eq_some] at h
  exact List.mem_of_getElem? (by simpa using h.2)

/-- A run fails at its limit, or one of its instructions does. -/
theorem fault_of_runFrom {channel : Channel σ} {program : List Instruction}
    {limit fuel steps : Nat} {m : Machine σ} {f : Fault}
    (h : (runFrom channel program.toArray limit fuel steps m).ending = .failed f) :
    0 < limit ∧ f = .limit limit ∨
      ∃ i ∈ program, ∃ m m' : Machine σ, step channel program.length i m = .fault f m' := by
  induction fuel generalizing steps m with
  | zero => cases h
  | succ fuel ih =>
    simp only [runFrom, List.size_toArray] at h
    cases hi : current? program.toArray m with
    | none => simp [hi] at h
    | some i =>
      simp only [hi] at h
      by_cases hlimit : 0 < limit ∧ limit ≤ steps
      · rw [if_pos hlimit] at h
        cases h
        exact .inl ⟨hlimit.1, rfl⟩
      · rw [if_neg hlimit] at h
        cases hstep : step channel program.length i m with
        | next m' =>
          rw [hstep] at h
          exact ih h
        | fault g m' =>
          rw [hstep] at h
          cases h
          exact .inr ⟨i, mem_of_current? hi, m, m', hstep⟩

/-! ## Many instructions -/

/-- The program takes the machine `m` to `m'` by executing `k` instructions. -/
inductive Steps (channel : Channel σ) (program : List Instruction) :
    Nat → Machine σ → Machine σ → Prop where
  | refl (m : Machine σ) : Steps channel program 0 m m
  | step {k : Nat} {m m' m'' : Machine σ} {i : Instruction} (h : Steps channel program k m m')
      (hi : current? program.toArray m' = some i)
      (hstep : Machine.step channel program.length i m' = .next m'') :
      Steps channel program (k + 1) m m''

namespace Steps

variable {channel : Channel σ} {program : List Instruction} {k l : Nat} {m m' m'' : Machine σ}

theorem trans (h : Steps channel program k m m') (h' : Steps channel program l m' m'') :
    Steps channel program (k + l) m m'' := by
  induction h' with
  | refl => exact h
  | step _ hi hstep ih => exact (ih h).step hi hstep

/-- Instructions that were executed are over, and the run goes on from there. -/
theorem runFrom_eq (h : Steps channel program k m m') (fuel steps : Nat) :
    runFrom channel program.toArray 0 (k + fuel) steps m =
      runFrom channel program.toArray 0 fuel (steps + k) m' := by
  induction h generalizing fuel with
  | refl => rw [Nat.zero_add]; rfl
  | @step k m m' m'' i _ hi hstep ih =>
    have hlast : runFrom channel program.toArray 0 (fuel + 1) (steps + k) m' =
        runFrom channel program.toArray 0 fuel (steps + k + 1) m'' := by
      simp only [runFrom, hi, List.size_toArray, hstep, Nat.lt_irrefl, false_and, if_false]
    rw [Nat.add_right_comm k 1 fuel, Nat.add_assoc k fuel 1, ih, hlast, Nat.add_assoc]

/-- There is one way to execute instructions. -/
theorem unique (h : Steps channel program k m m') (h' : Steps channel program k m m'') :
    m' = m'' := by
  have hrun := (h.runFrom_eq 0 0).symm.trans (h'.runFrom_eq 0 0)
  exact congrArg Run.machine hrun

theorem exists_between {j d : Nat} (h : Steps channel program (j + d) m m'') :
    ∃ m', Steps channel program j m m' ∧ Steps channel program d m' m'' := by
  induction d generalizing m'' with
  | zero => exact ⟨m'', h, .refl _⟩
  | succ d ih =>
    cases h with
    | step h hi hstep =>
      obtain ⟨m', hfirst, hrest⟩ := ih h
      exact ⟨m', hfirst, hrest.step hi hstep⟩

/-- Of two points of a run, the later one is reached from the earlier one. -/
theorem of_le (h : Steps channel program k m m') (h' : Steps channel program l m m'')
    (hle : k ≤ l) : Steps channel program (l - k) m' m'' := by
  rw [← Nat.add_sub_of_le hle] at h'
  obtain ⟨_, hfirst, hrest⟩ := h'.exists_between
  rwa [h.unique hfirst]

/-- A run that comes out of the program has finished. -/
theorem watch_eq_finished {world : σ} (h : Steps channel program k (start world) m)
    (hnone : current? program.toArray m = none) {fuel : Nat} (hfuel : k < fuel) :
    watch channel program world fuel = ⟨.finished, k, m⟩ := by
  obtain ⟨more, rfl⟩ := Nat.exists_eq_add_of_lt hfuel
  rw [watch, Nat.add_assoc, h.runFrom_eq, Nat.zero_add]
  simp only [runFrom, hnone]

end Steps

/-- A run that is still going has executed all the instructions that it was watched for. -/
theorem steps_watch {channel : Channel σ} {program : List Instruction} {world : σ} {k : Nat}
    (h : (watch channel program world k).ending = .unfinished) :
    Steps channel program k (start world) (watch channel program world k).machine := by
  induction k with
  | zero => exact .refl _
  | succ k ih =>
    have hrun : (watch channel program world k).ending = .unfinished := by
      by_contra hended
      rw [watch_of_ended hended (Nat.le_succ k)] at h
      exact hended h
    rw [watch_succ hrun] at h ⊢
    simp only [runFrom, List.size_toArray] at h ⊢
    cases hi : current? program.toArray (watch channel program world k).machine with
    | none => simp [hi] at h
    | some i =>
      simp only [hi, Nat.lt_irrefl, false_and, if_false] at h ⊢
      cases hstep : step channel program.length i (watch channel program world k).machine with
      | next m' => exact (ih hrun).step hi hstep
      | fault f m' => simp [hstep] at h

end Contour.Machine
