import Contour.Machine
import Mathlib.Data.List.Forall2

/-!
# Programs that run alike

What an instruction does depends on the operation it names and on the argument that the operation
takes, and on nothing else of it (`SameEffect`). Two programs whose instructions have the same
effect one by one therefore run in step (`runFrom_alike`): after every number of steps they have
left the same machine, and they end alike. Only the instruction that a failed channel is reported
with may differ; the relation `R` between the two says in what.
-/

namespace Contour

/-- Faults that differ at most in the instruction at which a channel failed. -/
inductive Fault.Alike (R : Instruction → Instruction → Prop) : Fault → Fault → Prop where
  | refl (f : Fault) : Alike R f f
  | channel (position : Nat) {i j : Instruction} (h : R i j) (error : ChannelError) :
      Alike R (.channel position i error) (.channel position j error)

theorem Fault.message_channel (position : Nat) (i : Instruction) (error : ChannelError) :
    (Fault.channel position i error).message =
      "instruction " ++ Decimal.text position ++ " (" ++ i.text ++ "): " ++ error.message := rfl

/-- Instructions with the same text are reported with the same words. -/
theorem Fault.Alike.message_eq {f g : Fault} (h : Fault.Alike (fun i j => i.text = j.text) f g) :
    f.message = g.message := by
  cases h with
  | refl => rfl
  | channel position h error => rw [Fault.message_channel, Fault.message_channel, h]

namespace Machine

variable {σ : Type} {R : Instruction → Instruction → Prop}

/-- Endings that differ at most in the instruction at which a channel failed. -/
inductive Ending.Alike (R : Instruction → Instruction → Prop) : Ending → Ending → Prop where
  | refl (e : Ending) : Alike R e e
  | failed {f g : Fault} (h : f.Alike R g) : Alike R (.failed f) (.failed g)

/-- Runs that take the same number of steps to the same machine, and end alike. -/
structure Run.Alike (R : Instruction → Instruction → Prop) (r r' : Run σ) : Prop where
  steps : r.steps = r'.steps
  machine : r.machine = r'.machine
  ending : r.ending.Alike R r'.ending

theorem Run.Alike.refl (r : Run σ) : r.Alike R r := ⟨rfl, rfl, .refl _⟩

theorem Run.Alike.message_eq {r r' : Run σ} (h : r.Alike (fun i j => i.text = j.text) r') :
    r.fault?.map Fault.message = r'.fault?.map Fault.message := by
  obtain ⟨ending, steps, m⟩ := r
  obtain ⟨ending', steps', m'⟩ := r'
  cases h.ending with
  | refl => rfl
  | failed hfault => exact congrArg some hfault.message_eq

/-- Steps to the same machine, or to alike faults that leave the same machine. -/
inductive Progress.Alike (R : Instruction → Instruction → Prop) :
    Progress σ → Progress σ → Prop where
  | next (m : Machine σ) : Alike R (.next m) (.next m)
  | fault {f g : Fault} (h : f.Alike R g) (m : Machine σ) : Alike R (.fault f m) (.fault g m)

theorem Progress.Alike.refl (p : Progress σ) : p.Alike R p := by
  cases p with
  | next m => exact .next m
  | fault f m => exact .fault (.refl f) m

/-! ## One step -/

/-- Instructions that name the same operation and give it the same argument, if it takes one. -/
def SameEffect (i j : Instruction) : Prop :=
  ∃ op, i.opcode? = some op ∧ j.opcode? = some op ∧
    (op.takesArgument = true →
      i.argument.getD op.defaultArgument = j.argument.getD op.defaultArgument)

theorem afterChannel_alike {i j : Instruction} (hR : R i j) (position : Int)
    (result : Except ChannelError Unit × Machine σ) :
    (afterChannel i position result).Alike R (afterChannel j position result) := by
  obtain ⟨_ | _, m⟩ := result
  · exact .fault (.channel _ hR _) m
  · exact .next _

/-- An operation that takes no argument does not look at one. -/
theorem perform_argument {op : Opcode} (h : op.takesArgument = false) (channel : Channel σ)
    (n : Nat) (i : Instruction) (arg arg' : Int) (m : Machine σ) :
    perform channel n i op arg m = perform channel n i op arg' m := by
  cases op with
  | add | sub | mul | div | mod | pow | abs => rfl
  | _ => exact absurd h (by decide)

theorem perform_alike {i j : Instruction} (hR : R i j) (channel : Channel σ) (n : Nat) (op : Opcode)
    (arg : Int) (m : Machine σ) :
    (perform channel n i op arg m).Alike R (perform channel n j op arg m) := by
  cases op with
  | print => exact afterChannel_alike hR _ _
  | read => exact afterChannel_alike hR _ _
  | _ => exact .refl _

theorem step_alike {i j : Instruction} (h : SameEffect i j) (hR : R i j) (channel : Channel σ)
    (n : Nat) (m : Machine σ) : (step channel n i m).Alike R (step channel n j m) := by
  obtain ⟨op, hi, hj, harg⟩ := h
  simp only [step, hi, hj]
  cases htakes : op.takesArgument with
  | true => rw [harg htakes]; exact perform_alike hR ..
  | false => rw [perform_argument htakes channel n i _ (j.argument.getD op.defaultArgument)]
             exact perform_alike hR ..

/-! ## Runs -/

theorem getElem?_forall₂ {α β : Type} {E : α → β → Prop} {p : List α} {q : List β}
    (h : List.Forall₂ E p q) (k : Nat) :
    (p[k]? = none ∧ q[k]? = none) ∨ ∃ i j, p[k]? = some i ∧ q[k]? = some j ∧ E i j := by
  induction h generalizing k with
  | nil => exact .inl ⟨rfl, rfl⟩
  | @cons i j p q hij _ ih =>
    cases k with
    | zero => exact .inr ⟨i, j, rfl, rfl, hij⟩
    | succ k => simpa using ih k

/-- Related programs have related instructions at the instruction pointer, or both have none. -/
theorem current?_forall₂ {E : Instruction → Instruction → Prop} {p q : List Instruction}
    (h : List.Forall₂ E p q) (m : Machine σ) :
    (current? p.toArray m = none ∧ current? q.toArray m = none) ∨
      ∃ i j, current? p.toArray m = some i ∧ current? q.toArray m = some j ∧ E i j := by
  by_cases hip : m.ip < 0
  · exact .inl ⟨if_pos hip, if_pos hip⟩
  · simpa [current?, hip] using getElem?_forall₂ h m.ip.toNat

/-- Programs whose instructions have the same effect run alike, however long they are watched. -/
theorem runFrom_alike {p q : List Instruction}
    (h : List.Forall₂ (fun i j => SameEffect i j ∧ R i j) p q) (channel : Channel σ) (limit : Nat)
    (fuel steps : Nat) (m : Machine σ) :
    (runFrom channel p.toArray limit fuel steps m).Alike R
      (runFrom channel q.toArray limit fuel steps m) := by
  have hsize : q.toArray.size = p.toArray.size := by simp [h.length_eq]
  induction fuel generalizing steps m with
  | zero => exact .refl _
  | succ fuel ih =>
    obtain ⟨hp, hq⟩ | ⟨i, j, hp, hq, heffect, hR⟩ := current?_forall₂ h m
    · simp only [runFrom, hp, hq]
      exact .refl _
    · simp only [runFrom, hp, hq, hsize]
      by_cases hlimit : 0 < limit ∧ limit ≤ steps
      · simp only [if_pos hlimit]
        exact .refl _
      · simp only [if_neg hlimit]
        -- Both programs take their next step from the same machine, to the same machine.
        have hstep := step_alike heffect hR channel p.toArray.size m
        generalize step channel p.toArray.size i m = a at hstep ⊢
        generalize step channel p.toArray.size j m = b at hstep ⊢
        cases hstep with
        | next m' => exact ih (steps + 1) m'
        | fault hfault m' => exact ⟨rfl, rfl, .failed hfault⟩

theorem execute_alike {p q : List Instruction}
    (h : List.Forall₂ (fun i j => SameEffect i j ∧ R i j) p q) (channel : Channel σ) (limit : Nat)
    (world : σ) : (execute channel p limit world).Alike R (execute channel q limit world) :=
  runFrom_alike h channel limit _ 0 (start world)

end Machine

end Contour
