import Contour.Assembly
import Contour.Proofs.Machine.Steps
import Mathlib.Data.Nat.Fib.Basic

/-!
# A program for Fibonacci numbers

The program `fibonacci` reads a number `n` and writes the first `n` Fibonacci numbers, or none if
`n` is not positive (`fibonacci_writes`). It keeps three values on its stack: two neighbours among
the Fibonacci numbers, and below them how many are still to be written, plus one.

It is followed piece by piece: `steps_prologue` up to the start of its loop, `steps_turn` once
around the loop, in which one number is written, and `steps_exit` out of it. `steps_turns` is the
invariant of the loop: after `k` turns the two neighbours are the numbers `k` and `k + 1`.
-/

namespace Contour.Machine

variable {σ : Type}

/-! ## Operations at the ends of the stack -/

section Values

variable (channel : Channel σ) (n : Nat) (i : Instruction) (top bottom : List Int) (v : Int)
  (zero : Bool) (ip : Int) (world : σ)

/-- `pick` with a negative argument takes a value by its distance from the bottom. -/
theorem perform_pick_bottom (h : (top ++ v :: bottom).length < 2 ^ 61) :
    perform channel n i .pick (-(bottom.length + 1)) ⟨top ++ v :: bottom, zero, ip, world⟩ =
      .next ⟨v :: (top ++ bottom), v == 0, ip + 1, world⟩ := by
  obtain ⟨x, rest, hstack⟩ : ∃ x rest, top ++ v :: bottom = x :: rest :=
    List.exists_cons_of_ne_nil (by simp)
  have hlength : rest.length = top.length + bottom.length := by
    have := congrArg List.length hstack
    simp at this
    omega
  have hindex : pickIndex (toCount (-(bottom.length + 1))) (Int64.ofNat (rest.length + 1)) =
      bottom.length := by
    rw [pickIndex_toCount _ (by omega) (by rw [hstack] at h; simpa using h), if_neg (by omega),
      Table.resolve, if_neg (by omega)]
    omega
  have htop : rest.length - bottom.length = top.length := by omega
  simp only [perform, hstack, hindex, htop]
  rw [← hstack, List.getElem?_append_right (Nat.le_refl _),
    List.eraseIdx_append_of_length_le (Nat.le_refl _)]
  simp [advance]

/-- `place` with a negative argument puts the top value at a distance from the bottom. -/
theorem perform_place_bottom (h : (top ++ bottom).length < 2 ^ 61) :
    perform channel n i .place (-(bottom.length + 1)) ⟨v :: (top ++ bottom), zero, ip, world⟩ =
      .next ⟨top ++ v :: bottom, v == 0, ip + 1, world⟩ := by
  have hindex : placeIndex (toCount (-(bottom.length + 1))) (Int64.ofNat (top ++ bottom).length) =
      bottom.length := by
    rw [placeIndex_toCount _ h, if_neg (by omega), Table.resolve, if_neg (by omega)]
    simp only [List.length_append]
    omega
  have htop : (top ++ bottom).length - bottom.length = top.length := by simp
  simp only [perform, hindex, htop]
  rw [insertIdx_eq_take_cons_drop v (by simp), List.take_left, List.drop_left]
  rfl

/-- `pop 1` drops the top value, which sets the flag. -/
theorem perform_pop_one (h : top.length + 1 < 2 ^ 61) :
    perform channel n i .pop 1 ⟨v :: top, zero, ip, world⟩ =
      .next ⟨top, v == 0, ip + 1, world⟩ := by
  have hone : toCount 1 = 1 := rfl
  have hsome : ¬ (1 : Int64) ≤ 0 := by decide
  have henough : ¬ Int64.ofNat (top.length + 1) < 1 := by
    rw [Int64.lt_iff_toInt_lt, toInt_ofNat_of_small h, show (1 : Int64).toInt = 1 from rfl]
    omega
  simp only [perform, hone, if_neg hsome, List.length_cons, if_neg henough]
  rfl

end Values

/-! ## The program -/

/-- The program, line by line. -/
def fibonacci : List String :=
  ["read 1", "push 1", "add", "push 0", "push 1",
    "pick -1", "push 1", "sub", "copy 3", "abs", "add", "pop 1", "jmpz 7",
    "place -1", "copy 3", "print 1", "pick -2", "add", "jmpnz -13"]

/-- The instructions on these lines. -/
def fibonacciCode : List Instruction :=
  [⟨"read", some 1, 1, 0⟩, ⟨"push", some 1, 2, 0⟩, ⟨"add", none, 3, 0⟩, ⟨"push", some 0, 4, 0⟩,
    ⟨"push", some 1, 5, 0⟩, ⟨"pick", some (-1), 6, 0⟩, ⟨"push", some 1, 7, 0⟩, ⟨"sub", none, 8, 0⟩,
    ⟨"copy", some 3, 9, 0⟩, ⟨"abs", none, 10, 0⟩, ⟨"add", none, 11, 0⟩, ⟨"pop", some 1, 12, 0⟩,
    ⟨"jmpz", some 7, 13, 0⟩, ⟨"place", some (-1), 14, 0⟩, ⟨"copy", some 3, 15, 0⟩,
    ⟨"print", some 1, 16, 0⟩, ⟨"pick", some (-2), 17, 0⟩, ⟨"add", none, 18, 0⟩,
    ⟨"jmpnz", some (-13), 19, 0⟩]

theorem ofLines_fibonacci : Assembly.ofLines (fibonacci.map String.toList) = fibonacciCode := by
  decide +kernel

/-! ## Its pieces -/

variable {channel : Channel σ} {world world' : σ}

/-- Up to the loop: the number is read, one is added to it, and the first two Fibonacci numbers are
put on top of it. -/
theorem steps_prologue {n : Int} (hread : channel.read world = (.ok n, world')) :
    Steps channel fibonacciCode 5 (start world) ⟨[1, 0, n + 1], false, 5, world'⟩ := by
  have h₁ : Steps channel fibonacciCode 1 (start world) ⟨[n], n == 0, 1, world'⟩ := by
    refine (Steps.refl _).step rfl ?_
    show afterChannel _ _ (readValues channel 1 (start world)) = _
    simp only [readValues, start, hread]
    rfl
  have h₂ : Steps channel fibonacciCode 2 (start world) ⟨[1, n], false, 2, world'⟩ :=
    h₁.step rfl rfl
  have h₃ : Steps channel fibonacciCode 3 (start world) ⟨[n + 1], n + 1 == 0, 3, world'⟩ :=
    h₂.step rfl rfl
  have h₄ : Steps channel fibonacciCode 4 (start world) ⟨[0, n + 1], true, 4, world'⟩ :=
    h₃.step rfl rfl
  exact h₄.step rfl rfl

/-- The first half of the loop: the count is brought up and lowered by one, and the flag tells
whether it is positive. -/
theorem steps_head (a b c : Int) (zero : Bool) :
    Steps channel fibonacciCode 7 ⟨[b, a, c + 1], zero, 5, world⟩
      ⟨[c, b, a], decide (c ≤ 0), 12, world⟩ := by
  have h₁ : Steps channel fibonacciCode 1 ⟨[b, a, c + 1], zero, 5, world⟩
      ⟨[c + 1, b, a], c + 1 == 0, 6, world⟩ :=
    (Steps.refl _).step rfl (perform_pick_bottom channel 19 ⟨"pick", some (-1), 6, 0⟩ [b, a] []
      (c + 1) zero 5 world (by simp))
  have h₂ : Steps channel fibonacciCode 2 ⟨[b, a, c + 1], zero, 5, world⟩
      ⟨[1, c + 1, b, a], false, 7, world⟩ := h₁.step rfl rfl
  have h₃ : Steps channel fibonacciCode 3 ⟨[b, a, c + 1], zero, 5, world⟩
      ⟨[c, b, a], c == 0, 8, world⟩ := by
    have h : Steps channel fibonacciCode 3 ⟨[b, a, c + 1], zero, 5, world⟩
        ⟨[c + 1 - 1, b, a], c + 1 - 1 == 0, 8, world⟩ := h₂.step rfl rfl
    rwa [Int.add_sub_cancel] at h
  have h₄ : Steps channel fibonacciCode 4 ⟨[b, a, c + 1], zero, 5, world⟩
      ⟨[c, c, c, b, a], c == 0, 9, world⟩ := h₃.step rfl rfl
  have h₅ : Steps channel fibonacciCode 5 ⟨[b, a, c + 1], zero, 5, world⟩
      ⟨[c.natAbs, c, c, b, a], (c.natAbs : Int) == 0, 10, world⟩ := h₄.step rfl rfl
  have h₆ : Steps channel fibonacciCode 6 ⟨[b, a, c + 1], zero, 5, world⟩
      ⟨[c + c.natAbs, c, b, a], c + c.natAbs == 0, 11, world⟩ := h₅.step rfl rfl
  have h₇ : Steps channel fibonacciCode 7 ⟨[b, a, c + 1], zero, 5, world⟩
      ⟨[c, b, a], c + c.natAbs == 0, 12, world⟩ :=
    h₆.step rfl (perform_pop_one channel 19 ⟨"pop", some 1, 12, 0⟩ [c, b, a] (c + c.natAbs) _ 11
      world (by simp))
  -- a number and its absolute value add up to zero exactly if it is not positive
  have hflag : (c + c.natAbs == 0) = decide (c ≤ 0) := by
    rw [Bool.eq_iff_iff, beq_iff_eq, decide_eq_true_eq]
    omega
  rwa [hflag] at h₇

/-- Out of the loop, when the count is not positive. -/
theorem steps_exit (a b : Int) {c : Int} (hc : c ≤ 0) (zero : Bool) :
    Steps channel fibonacciCode 8 ⟨[b, a, c + 1], zero, 5, world⟩ ⟨[c, b, a], true, 19, world⟩ := by
  have h₇ : Steps channel fibonacciCode 7 ⟨[b, a, c + 1], zero, 5, world⟩
      ⟨[c, b, a], decide (c ≤ 0), 12, world⟩ := steps_head a b c zero
  rw [decide_eq_true hc] at h₇
  exact h₇.step rfl rfl

/-- Once around the loop, when the count is positive: the upper number is written, and it becomes
the lower one under the sum of both. -/
theorem steps_turn {a b c : Int} (hc : 0 < c) (hsum : b + a ≠ 0)
    (hwrite : channel.write b world = (.ok (), world')) (zero : Bool) :
    Steps channel fibonacciCode 14 ⟨[b, a, c + 1], zero, 5, world⟩
      ⟨[b + a, b, c], false, 5, world'⟩ := by
  have h₇ : Steps channel fibonacciCode 7 ⟨[b, a, c + 1], zero, 5, world⟩
      ⟨[c, b, a], decide (c ≤ 0), 12, world⟩ := steps_head a b c zero
  rw [decide_eq_false (Int.not_le.mpr hc)] at h₇
  have h₈ : Steps channel fibonacciCode 8 ⟨[b, a, c + 1], zero, 5, world⟩
      ⟨[c, b, a], false, 13, world⟩ := h₇.step rfl rfl
  have h₉ : Steps channel fibonacciCode 9 ⟨[b, a, c + 1], zero, 5, world⟩
      ⟨[b, a, c], c == 0, 14, world⟩ :=
    h₈.step rfl (perform_place_bottom channel 19 ⟨"place", some (-1), 14, 0⟩ [b, a] [] c false 13
      world (by simp))
  have h₁₀ : Steps channel fibonacciCode 10 ⟨[b, a, c + 1], zero, 5, world⟩
      ⟨[b, b, b, a, c], b == 0, 15, world⟩ := h₉.step rfl rfl
  have h₁₁ : Steps channel fibonacciCode 11 ⟨[b, a, c + 1], zero, 5, world⟩
      ⟨[b, b, a, c], b == 0, 16, world'⟩ := by
    refine h₁₀.step rfl ?_
    show afterChannel _ _ (printValues channel 1 _) = _
    simp only [printValues, hwrite]
    rfl
  have h₁₂ : Steps channel fibonacciCode 12 ⟨[b, a, c + 1], zero, 5, world⟩
      ⟨[a, b, b, c], a == 0, 17, world'⟩ :=
    h₁₁.step rfl (perform_pick_bottom channel 19 ⟨"pick", some (-2), 17, 0⟩ [b, b] [c] a (b == 0) 16
      world' (by simp))
  have h₁₃ : Steps channel fibonacciCode 13 ⟨[b, a, c + 1], zero, 5, world⟩
      ⟨[b + a, b, c], b + a == 0, 18, world'⟩ := h₁₂.step rfl rfl
  rw [beq_false_of_ne hsum] at h₁₃
  exact h₁₃.step rfl (congrArg Progress.next
    (jump_toCount ⟨[b + a, b, c], false, 18, world'⟩ (-13) (n := 19) (by decide)
      (show (0 : Int) ≤ 18 by decide) (show (18 : Int) < 19 by decide)))

/-! ## The whole run -/

/-- The machine after `k` turns of the loop, in which `k` numbers have been written. -/
def afterTurns (n : Int) (k : Nat) (world : σ) : Machine (Recorded σ) :=
  ⟨[Nat.fib (k + 1), Nat.fib k, n - k + 1], false, 5, world, [n],
    (List.range k).map fun j => (Nat.fib (j + 1) : Int)⟩

theorem steps_afterTurns_succ {n : Int} {k : Nat} (hk : k < n.toNat)
    (hwrite : channel.write (Nat.fib (k + 1)) world = (.ok (), world')) :
    Steps channel.recorded fibonacciCode 14 (afterTurns n k world)
      (afterTurns n (k + 1) world') := by
  have hcount : n - (k + 1 : Nat) + 1 = n - k := by omega
  have hsum : (Nat.fib (k + 1) : Int) + Nat.fib k = Nat.fib (k + 2) := by
    rw [Nat.fib_add_two, Int.natCast_add, Int.add_comm]
  have hpositive : (Nat.fib (k + 2) : Int) ≠ 0 :=
    Int.natCast_ne_zero.mpr (Nat.fib_pos.mpr (Nat.succ_pos _)).ne'
  rw [afterTurns, afterTurns, hcount, ← hsum, List.range_succ, List.map_append]
  refine steps_turn (by omega) (by rwa [hsum]) ?_ false
  rw [Channel.recorded_write, hwrite]
  rfl

/-- The invariant of the loop. -/
theorem steps_turns {n : Int} {ready : σ → Prop} (hread : channel.read world = (.ok n, world'))
    (hready : ready world')
    (hwrite : ∀ v s, ready s → ∃ s', channel.write v s = (.ok (), s') ∧ ready s')
    {k : Nat} (hk : k ≤ n.toNat) :
    ∃ now, ready now ∧ Steps channel.recorded fibonacciCode (5 + 14 * k) (start (.fresh world))
      (afterTurns n k now) := by
  induction k with
  | zero =>
    have hrecorded : channel.recorded.read (.fresh world) = (.ok n, ⟨world', [n], []⟩) := by
      rw [Channel.recorded_read, Recorded.fresh, hread]
      rfl
    refine ⟨world', hready, ?_⟩
    simpa [afterTurns] using steps_prologue hrecorded
  | succ k ih =>
    obtain ⟨now, hnow, hsteps⟩ := ih (by omega)
    obtain ⟨next, hanswer, hnext⟩ := hwrite (Nat.fib (k + 1)) now hnow
    exact ⟨next, hnext, hsteps.trans (steps_afterTurns_succ hk hanswer)⟩

/-- For every number `n` that is read, and a writer that takes what it is given, the program ends
without a fault, after fourteen steps for each number that it writes and thirteen more. It reads `n`
and nothing else, and writes the first `n` Fibonacci numbers and nothing else. This is its run with
or without a limit, if that leaves room for these steps. -/
theorem fibonacci_writes (channel : Channel σ) (n : Int) (world world' : σ)
    (hread : channel.read world = (.ok n, world')) (ready : σ → Prop) (hready : ready world')
    (hwrite : ∀ v s, ready s → ∃ s', channel.write v s = (.ok (), s') ∧ ready s') :
    let program := Assembly.ofLines (fibonacci.map String.toList)
    let steps := 13 + 14 * n.toNat
    ∃ m : Machine (Recorded σ),
      m.world.read = [n] ∧
      m.world.written = (List.range n.toNat).map (fun k => (Nat.fib (k + 1) : Int)) ∧
      (∀ fuel, steps < fuel →
        watch channel.recorded program (.fresh world) fuel = ⟨.finished, steps, m⟩ ∧
        watch channel program world fuel = ⟨.finished, steps, m.mapWorld Recorded.world⟩) ∧
      ∀ limit, steps ≤ limit ∨ limit = 0 ∧ steps < patience →
        execute channel.recorded program limit (.fresh world) = ⟨.finished, steps, m⟩ ∧
        execute channel program limit world =
          ⟨.finished, steps, m.mapWorld Recorded.world⟩ := by
  intro program steps
  have hprogram : program = fibonacciCode := ofLines_fibonacci
  clear_value program
  subst hprogram
  obtain ⟨now, -, hturns⟩ := steps_turns hread hready hwrite (Nat.le_refl n.toNat)
  let m : Machine (Recorded σ) :=
    ⟨[n - n.toNat, Nat.fib (n.toNat + 1), Nat.fib n.toNat], true, 19,
      (afterTurns n n.toNat now).world⟩
  have hsteps : Steps channel.recorded fibonacciCode steps (start (.fresh world)) m := by
    have h := hturns.trans (steps_exit (Nat.fib n.toNat) (Nat.fib (n.toNat + 1))
      (c := n - n.toNat) (by omega) false)
    rwa [show 5 + 14 * n.toNat + 8 = steps by omega] at h
  have hwatch (fuel : Nat) (hfuel : steps < fuel) :
      watch channel.recorded fibonacciCode (.fresh world) fuel = ⟨.finished, steps, m⟩ :=
    hsteps.watch_eq_finished rfl hfuel
  have hexecute (limit : Nat) (hlimit : steps ≤ limit ∨ limit = 0 ∧ steps < patience) :
      execute channel.recorded fibonacciCode limit (.fresh world) = ⟨.finished, steps, m⟩ := by
    rcases hlimit with hlimit | ⟨rfl, hsteps⟩
    · have hended := hwatch (steps + 1) (Nat.lt_succ_self _)
      rw [← hended]
      exact execute_of_ended (by omega) (by simp [hended]) (by simpa [hended] using hlimit)
    · exact hwatch patience hsteps
  refine ⟨m, rfl, rfl, fun fuel hfuel => ⟨hwatch fuel hfuel, ?_⟩,
    fun limit hlimit => ⟨hexecute limit hlimit, ?_⟩⟩
  · exact (runFrom_mapWorld (Recorded.carries_world channel) _ 0 fuel 0
      (start (.fresh world))).trans (congrArg (Run.mapWorld Recorded.world) (hwatch fuel hfuel))
  · exact (execute_mapWorld (Recorded.carries_world channel) _ limit (.fresh world)).trans
      (congrArg (Run.mapWorld Recorded.world) (hexecute limit hlimit))

/-- A console with the number three, and another one that stays there. -/
theorem fibonacci_writes_three :
    let console : Console := { format := .number, input := "3 9".toList }
    Console.channel.read console = (.ok 3, { console with input := ['9'] }) ∧
    ∃ m : Machine (Recorded Console),
      m.world.written = [1, 1, 2] ∧
      execute Console.channel.recorded (Assembly.ofLines (fibonacci.map String.toList)) 55
        (.fresh console) = ⟨.finished, 55, m⟩ := by
  intro console
  have hread : Console.channel.read console = (.ok 3, { console with input := ['9'] }) := by
    decide +kernel
  have hwrite (v : Int) (s : Console) (h : s.room = none) :
      ∃ s', Console.channel.write v s = (.ok (), s') ∧ s'.room = none := by
    refine ⟨{ s with output := s.output ++ Console.render s.format v }, ?_, h⟩
    simp [Console.channel, Console.write, h]
  obtain ⟨m, -, hwritten, -, hexecute⟩ :=
    fibonacci_writes Console.channel 3 console _ hread (·.room = none) rfl hwrite
  exact ⟨hread, m, hwritten.trans (by decide), (hexecute 55 (.inl (by decide))).1⟩

end Contour.Machine
