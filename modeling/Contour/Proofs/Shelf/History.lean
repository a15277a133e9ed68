import Contour.Proofs.Shelf.Rows

/-!
# Histories of a shelf

A shelf is a finite map from names to programs. A history is a list of steps, each with its answer:
`Step` says what can be done with a shelf, `act` does it, and `history` collects the answers from an
empty shelf on. A step that fails leaves the shelf as it is.

* `kept?_act`: what one step does to the program of a name, by its effect in the history;
* `Sound.act`: the rows stay in order and readable;
* `get_after_iff`: the program of a name is the one that was put there last, unless it was deleted
  since;
* `after_isMap`: what every step answers after any history.
-/

namespace Contour.Shelf

/-! ## Steps -/

/-- What can be done with a shelf. -/
inductive Step where
  /-- A program is put under a name, with a fresh identifier and the time. -/
  | put (id : Uuid) (created : Int) (name : String) (ds : List Delta)
  | get (name : String)
  | list
  | delete (name : String)
  | close
  | reopen

/-- What a step is answered with. -/
inductive Answer where
  | program (p : Program)
  | programs (ps : List Program)
  | done
  | failed (e : Error)

/-- The answer to a result that changes nothing. -/
def answerTo {α : Type} (s : Shelf) (answer : α → Answer) : Except Error α → Answer × Shelf
  | .ok a => (answer a, s)
  | .error e => (.failed e, s)

/-- Carries out a step. -/
def act (s : Shelf) : Step → Answer × Shelf
  | .put id created name ds =>
    match s.put id created name ds with
    | .ok (p, s') => (.program p, s')
    | .error e => (.failed e, s)
  | .get name => answerTo s .program (s.get name)
  | .list => answerTo s .programs s.list
  | .delete name =>
    match s.delete name with
    | .ok s' => (.done, s')
    | .error e => (.failed e, s)
  | .close => (.done, s.close)
  | .reopen => (.done, s.reopen)

/-- A program that is put on the shelf has a proper identifier, and can be read back. -/
def Step.IsProper : Step → Prop
  | .put id _ _ ds => id.IsValid ∧ ds.length ≤ Cbor.maxElements
  | _ => True

/-- The program that comes on the shelf by putting deltas there. -/
def programOf (id : Uuid) (created : Int) (name : String) (ds : List Delta) : Program :=
  ⟨name, id, hash ds, ds, created⟩

/-- What a step with its answer does to the program of a name. -/
def effect (name : String) : Step × Answer → Option (Option Program)
  | (.put id created n ds, .program _) =>
    if n = name then some (some (programOf id created n ds)) else none
  | (.delete n, .done) => if n = name then some none else none
  | _ => none

/-- Whether a step opens or closes the shelf. -/
def Step.opening : Step → Option (Option Bool)
  | .close => some (some false)
  | .reopen => some (some true)
  | _ => none

/-! ## One step -/

/-- What a step can do: a program comes on the shelf or goes from it, the shelf is closed or opened,
or nothing happens, and then the step has no effect in a history. -/
theorem act_cases (s : Shelf) (x : Step) :
    (∃ id created name ds, x = .put id created name ds ∧
      s.act x = (.program (programOf id created name ds),
        { s with rows := insertRow (Program.row (programOf id created name ds)) s.rows })) ∨
    (∃ name, x = .delete name ∧
      s.act x = (.done, { s with rows := s.rows.filter (·.name != name) })) ∨
    (x = .close ∧ s.act x = (.done, s.close)) ∨
    (x = .reopen ∧ s.act x = (.done, s.reopen)) ∨
    ((s.act x).2 = s ∧ x.opening = none ∧ ∀ name, effect name (x, (s.act x).1) = none) := by
  have hanswer {α : Type} (answer : α → Answer) (r : Except Error α) :
      (answerTo s answer r).2 = s := by
    cases r <;> rfl
  cases x with
  | put id created name ds =>
    simp only [act, put]
    split_ifs
    · simp [effect, Step.opening]
    · simp [effect, Step.opening]
    · simp [effect, Step.opening]
    · exact .inl ⟨id, created, name, ds, rfl, rfl⟩
  | get name => exact .inr (.inr (.inr (.inr ⟨hanswer _ _, rfl, fun _ => rfl⟩)))
  | list => exact .inr (.inr (.inr (.inr ⟨hanswer _ _, rfl, fun _ => rfl⟩)))
  | delete name =>
    simp only [act, delete]
    split_ifs
    · simp [effect, Step.opening]
    · simp [effect, Step.opening]
    · cases s.row? name with
      | none => simp [effect, Step.opening]
      | some r => exact .inr (.inl ⟨name, rfl, rfl⟩)
  | close => exact .inr (.inr (.inl ⟨rfl, rfl⟩))
  | reopen => exact .inr (.inr (.inr (.inl ⟨rfl, rfl⟩)))

/-- A step that fails leaves the shelf as it is. -/
theorem act_of_failed {s : Shelf} {x : Step} {e : Error} (h : (s.act x).1 = .failed e) :
    (s.act x).2 = s := by
  obtain ⟨_, _, _, _, -, hact⟩ | ⟨_, -, hact⟩ | ⟨-, hact⟩ | ⟨-, hact⟩ | ⟨hsame, -⟩ := act_cases s x
  · rw [hact] at h; cases h
  · rw [hact] at h; cases h
  · rw [hact] at h; cases h
  · rw [hact] at h; cases h
  · exact hsame

theorem isOpen_act (s : Shelf) (x : Step) :
    some (s.act x).2.isOpen = x.opening.getD (some s.isOpen) := by
  obtain ⟨_, _, _, _, rfl, hact⟩ | ⟨_, rfl, hact⟩ | ⟨rfl, hact⟩ | ⟨rfl, hact⟩ | ⟨hsame, hnone, -⟩ :=
    act_cases s x
  · rw [hact]; rfl
  · rw [hact]; rfl
  · rw [hact]; rfl
  · rw [hact]; rfl
  · rw [hsame, hnone]; rfl

theorem program_programOf {id : Uuid} {created : Int} {name : String} {ds : List Delta}
    (h : (Step.put id created name ds).IsProper) :
    Row.program (Program.row (programOf id created name ds)) = .ok (programOf id created name ds) :=
  program_row h.1 h.2

/-- A step changes the program of a name by its effect. -/
theorem kept?_act (s : Shelf) {x : Step} (hx : x.IsProper) (name : String) :
    (s.act x).2.kept? name = (effect name (x, (s.act x).1)).getD (s.kept? name) := by
  obtain ⟨id, created, n, ds, rfl, hact⟩ | ⟨n, rfl, hact⟩ | ⟨rfl, hact⟩ | ⟨rfl, hact⟩ |
    ⟨hsame, -, hnone⟩ := act_cases s x
  · have hname : (Program.row (programOf id created n ds)).name = n := rfl
    simp only [hact, kept?, row?, find?_insertRow, effect, hname]
    split_ifs
    · rw [Option.bind_some, program_programOf hx]
      rfl
    · rfl
  · simp only [hact, kept?, row?, find?_filter_key Row.name, effect]
    by_cases h : n = name <;> simp [h]
  · rw [hact]; rfl
  · rw [hact]; rfl
  · rw [hsame, hnone]; rfl

/-- Rows stay in order and readable. -/
theorem Sound.act {s : Shelf} (h : s.Sound) {x : Step} (hx : x.IsProper) : (s.act x).2.Sound := by
  obtain ⟨id, created, n, ds, rfl, hact⟩ | ⟨n, rfl, hact⟩ | ⟨rfl, hact⟩ | ⟨rfl, hact⟩ |
    ⟨hsame, -⟩ := act_cases s x
  · rw [hact]
    refine ⟨h.writable, h.ordered.insertRow _, fun r hr => ?_⟩
    rcases mem_insertRow hr with rfl | hr
    · exact ⟨_, program_programOf hx, rfl⟩
    · exact h.program r hr
  · rw [hact]
    exact ⟨h.writable, h.ordered.filter _, fun r hr => h.program r (List.mem_of_mem_filter hr)⟩
  · rw [hact]
    exact ⟨h.writable, h.ordered, h.program⟩
  · rw [hact]
    exact ⟨h.writable, h.ordered, h.program⟩
  · rw [hsame]
    exact h

/-! ## All steps -/

/-- The shelf after steps, the first one first. -/
def after (s : Shelf) (steps : List Step) : Shelf := steps.foldl (fun s x => (s.act x).2) s

/-- The steps with their answers. -/
def history (s : Shelf) : List Step → List (Step × Answer)
  | [] => []
  | x :: steps => (x, (s.act x).1) :: (s.act x).2.history steps

theorem after_concat (s : Shelf) (steps : List Step) (x : Step) :
    s.after (steps ++ [x]) = ((s.after steps).act x).2 := by
  simp [after]

theorem history_concat (s : Shelf) (steps : List Step) (x : Step) :
    s.history (steps ++ [x]) = s.history steps ++ [(x, ((s.after steps).act x).1)] := by
  induction steps generalizing s with
  | nil => rfl
  | cons y steps ih => rw [List.cons_append, history, history, ih]; rfl

theorem sound_after {steps : List Step} (h : ∀ x ∈ steps, x.IsProper) : (after {} steps).Sound := by
  induction steps using List.reverseRecOn with
  | nil => exact ⟨rfl, .nil, by simp [after]⟩
  | append_singleton steps x ih =>
    rw [after_concat]
    exact (ih fun y hy => h y (by simp [hy])).act (h x (by simp))

/-- The shelf is closed if the latest step that opened or closed it closed it. -/
theorem isOpen_after_eq_false_iff (steps : List Step) :
    (after {} steps).isOpen = false ↔ Latest Step.opening steps false := by
  induction steps using List.reverseRecOn with
  | nil => simp [after, not_latest_nil]
  | append_singleton steps x ih =>
    rw [after_concat, latest_concat, ← ih, ← Option.some_inj, isOpen_act]
    cases x.opening with
    | none => simp
    | some content => simp

/-- The program of a name is the one that was put there last, unless it was deleted since. -/
theorem kept?_after_iff {steps : List Step} (h : ∀ x ∈ steps, x.IsProper) (name : String)
    (p : Program) :
    (after {} steps).kept? name = some p ↔ Latest (effect name) (history {} steps) p := by
  induction steps using List.reverseRecOn with
  | nil => simp [after, history, kept?, row?, not_latest_nil]
  | append_singleton steps x ih =>
    have ih' := ih fun y hy => h y (by simp [hy])
    rw [after_concat, history_concat, latest_concat, ← ih', kept?_act _ (h x (by simp))]
    cases effect name (x, ((after {} steps).act x).1) with
    | none => simp
    | some content => simp

/-- While a sound shelf is open, what can be deleted is what is kept. -/
theorem Sound.delete_eq {s : Shelf} (h : s.Sound) (hopen : s.isOpen = true) (name : String) :
    s.delete name = if (s.kept? name).isSome then
        .ok { s with rows := s.rows.filter (·.name != name) }
      else .error (.notFound name) := by
  rw [delete, kept?, hopen, h.writable]
  cases hrow : s.row? name with
  | none => rfl
  | some r =>
    obtain ⟨p, hp, -⟩ := h.program r (List.mem_of_find?_eq_some hrow)
    simp [hp, Except.toOption]

theorem Sound.put_eq {s : Shelf} (h : s.Sound) (hopen : s.isOpen = true) (id : Uuid)
    (created : Int) (name : String) (ds : List Delta) :
    s.put id created name ds = if name = "" then .error .emptyName
      else .ok (programOf id created name ds,
        { s with rows := insertRow (Program.row (programOf id created name ds)) s.rows }) := by
  rw [put, hopen, h.writable]
  rfl

/-- A shelf is a finite map from names to programs, whatever was done with it.

While it is open, `get` gives the program with the identifier, the digest, the deltas and the time
that were put under the name last and not deleted since, and fails with `notFound` if there is none.
`list` has exactly those programs, in the strict order of the bytes of their names. Every program
has the digest of its deltas. `delete` fails with `notFound` exactly if there is no program of the
name, and `put` if there is no name. While the shelf is closed everything fails. What fails leaves
the shelf as it is, and closing it or opening it again changes no row. -/
theorem after_isMap (steps : List Step) (hsteps : ∀ x ∈ steps, x.IsProper) :
    ((after {} steps).isOpen = false ↔ Latest Step.opening steps false) ∧
    ((after {} steps).isOpen = true →
      (∀ name p, (after {} steps).get name = .ok p ↔
        Latest (effect name) (history {} steps) p) ∧
      (∀ name, (after {} steps).get name = .error (.notFound name) ↔
        ¬ ∃ p, Latest (effect name) (history {} steps) p) ∧
      (∃ ps, (after {} steps).list = .ok ps ∧
        ps.Pairwise (fun p q => Utf8.encode p.name.toList < Utf8.encode q.name.toList) ∧
        ∀ p, p ∈ ps ↔ (after {} steps).get p.name = .ok p) ∧
      (∀ name p, (after {} steps).get name = .ok p → p.name = name ∧ p.hash = hash p.deltas) ∧
      (∀ name, (after {} steps).delete name = .error (.notFound name) ↔
        ¬ ∃ p, Latest (effect name) (history {} steps) p) ∧
      (∀ name, (∃ p, Latest (effect name) (history {} steps) p) →
        ∃ s, (after {} steps).delete name = .ok s) ∧
      (∀ id created name ds, name ≠ "" →
        ∃ s, (after {} steps).put id created name ds = .ok (programOf id created name ds, s)) ∧
      ∀ id created ds, (after {} steps).put id created "" ds = .error .emptyName) ∧
    ((after {} steps).isOpen = false → ∀ x, x ≠ .close → x ≠ .reopen →
      ∃ e, ((after {} steps).act x).1 = .failed e) ∧
    (∀ x e, ((after {} steps).act x).1 = .failed e → after {} (steps ++ [x]) = after {} steps) ∧
    ∀ x, x = .close ∨ x = .reopen → (after {} (steps ++ [x])).rows = (after {} steps).rows := by
  have hsound := sound_after hsteps
  have hkept (name : String) : (∃ p, Latest (effect name) (history {} steps) p) ↔
      ((after {} steps).kept? name).isSome = true := by
    rw [Option.isSome_iff_exists]
    exact exists_congr fun p => (kept?_after_iff hsteps name p).symm
  have hget (hopen : (after {} steps).isOpen = true) (name : String) (p : Program) :
      (after {} steps).get name = .ok p ↔ (after {} steps).kept? name = some p := by
    rw [hsound.get_eq hopen]
    cases (after {} steps).kept? name <;> simp
  refine ⟨isOpen_after_eq_false_iff steps, fun hopen => ⟨?_, ?_, ?_, ?_, ?_, ?_, ?_, ?_⟩,
    ?_, ?_, ?_⟩
  · intro name p
    rw [hget hopen, kept?_after_iff hsteps]
  · intro name
    rw [hkept, hsound.get_eq hopen]
    cases (after {} steps).kept? name <;> simp
  · obtain ⟨ps, hlist, horder, hmem⟩ := hsound.list_eq hopen
    exact ⟨ps, hlist, horder, fun p => (hmem p).trans (hget hopen p.name p).symm⟩
  · intro name p hp
    exact hsound.of_kept? ((hget hopen name p).mp hp)
  · intro name
    rw [hkept, hsound.delete_eq hopen]
    cases (after {} steps).kept? name <;> simp
  · intro name hp
    rw [hsound.delete_eq hopen, if_pos ((hkept name).mp hp)]
    exact ⟨_, rfl⟩
  · intro id created name ds hname
    rw [hsound.put_eq hopen, if_neg hname]
    exact ⟨_, rfl⟩
  · intro id created ds
    rw [hsound.put_eq hopen, if_pos rfl]
  · intro hclosed x hclose hreopen
    cases x with
    | put id created name ds =>
      by_cases hname : name = "" <;> simp [act, put, hclosed, hname]
    | get name => simp [act, get, hclosed, answerTo]
    | list => simp [act, list, hclosed, answerTo]
    | delete name => simp [act, delete, hclosed]
    | close => exact absurd rfl hclose
    | reopen => exact absurd rfl hreopen
  · intro x e hfailed
    rw [after_concat, act_of_failed hfailed]
  · rintro x (rfl | rfl)
    · rw [after_concat]; rfl
    · rw [after_concat]; rfl

/-- A program that was put on the shelf is there after the shelf was closed and opened again, though
it was to be deleted in between. -/
theorem after_isMap_closed_and_reopened :
    (after {} [.put ⟨List.replicate 32 7⟩ 0 "sum" [⟨1, 5⟩], .close, .delete "sum", .reopen]).get
        "sum" =
      .ok (programOf ⟨List.replicate 32 7⟩ 0 "sum" [⟨1, 5⟩]) := by
  have hproper : ∀ x ∈ [Step.put ⟨List.replicate 32 7⟩ 0 "sum" [⟨1, 5⟩], .close, .delete "sum",
      .reopen], x.IsProper := by
    simp [Step.IsProper, Uuid.IsValid, Cbor.maxElements]
  refine ((((after_isMap _ hproper).2.1 rfl).1 _ _).mpr ⟨[], _, _, rfl, rfl, ?_⟩)
  simp [history, act, put, delete, close, reopen, effect]

end Contour.Shelf
