import Contour.Proofs.DeltaFile.Binary
import Contour.Proofs.Latest
import Contour.Proofs.Utf8
import Contour.Proofs.Uuid

/-!
# The rows of a shelf

Rows are found under their names, also after another row was put in (`find?_insertRow`), and they
stay in the order of their names. `Shelf.Sound` says what holds of
every shelf that was filled by putting programs on it: the rows are in strict order, and every row
has a program that is read back with its digest. From it follows what `get` and `list` answer.
-/

namespace Contour.Shelf

/-! ## Rows and names -/

theorem find?_insertRow (r : Row) (rows : List Row) (name : String) :
    (insertRow r rows).find? (·.name == name) =
      if r.name = name then some r else rows.find? (·.name == name) := by
  induction rows with
  | nil => by_cases h : r.name = name <;> simp [insertRow, h]
  | cons s rows ih =>
    rw [insertRow]
    by_cases hname : r.name = name
    · rw [if_pos hname] at ih ⊢
      split_ifs with hlt heq
      · simp [hname]
      · simp [hname]
      · have hs : s.name ≠ name := fun hs => heq (hname.trans hs.symm)
        rw [List.find?_cons_of_neg (by simpa using hs), ih]
    · rw [if_neg hname] at ih ⊢
      split_ifs with hlt heq
      · simp [hname]
      · have hs : s.name ≠ name := heq ▸ hname
        simp [hname, hs]
      · rw [List.find?_cons, List.find?_cons, ih]

theorem mem_insertRow {r x : Row} {rows : List Row} (h : x ∈ insertRow r rows) :
    x = r ∨ x ∈ rows := by
  induction rows with
  | nil => exact .inl (List.mem_singleton.mp h)
  | cons s rows ih =>
    rw [insertRow] at h
    split_ifs at h with hlt heq
    · exact List.mem_cons.mp h
    · rcases List.mem_cons.mp h with rfl | h
      · exact .inl rfl
      · exact .inr (List.mem_cons_of_mem _ h)
    · rcases List.mem_cons.mp h with rfl | h
      · exact .inr List.mem_cons_self
      · exact (ih h).imp_right (List.mem_cons_of_mem _)

/-- Rows in the strict order of their names. -/
def Ordered (rows : List Row) : Prop := rows.Pairwise fun r s => r.name < s.name

theorem Ordered.insertRow {rows : List Row} (h : Ordered rows) (r : Row) :
    Ordered (insertRow r rows) := by
  induction rows with
  | nil => exact List.pairwise_singleton _ r
  | cons s rows ih =>
    obtain ⟨hs, hrows⟩ := List.pairwise_cons.mp h
    rw [Shelf.insertRow]
    split_ifs with hlt heq
    · refine List.pairwise_cons.mpr ⟨fun x hx => ?_, h⟩
      rcases List.mem_cons.mp hx with rfl | hx
      · exact hlt
      · exact String.lt_trans hlt (hs x hx)
    · exact List.pairwise_cons.mpr ⟨fun x hx => heq ▸ hs x hx, hrows⟩
    · refine List.pairwise_cons.mpr ⟨fun x hx => ?_, ih hrows⟩
      rcases mem_insertRow hx with rfl | hx
      · by_contra hnot
        exact heq (String.le_antisymm (String.not_lt.mp hnot) (String.not_lt.mp hlt))
      · exact hs x hx

theorem Ordered.filter {rows : List Row} (h : Ordered rows) (p : Row → Bool) :
    Ordered (rows.filter p) :=
  List.Pairwise.filter p h

/-- A row is the one that is found under its name. -/
theorem Ordered.find?_of_mem {rows : List Row} (h : Ordered rows) {r : Row} (hr : r ∈ rows) :
    rows.find? (·.name == r.name) = some r := by
  induction rows with
  | nil => cases hr
  | cons s rows ih =>
    obtain ⟨hs, hrows⟩ := List.pairwise_cons.mp h
    rcases List.mem_cons.mp hr with rfl | hr
    · simp
    · rw [List.find?_cons_of_neg (by simpa using String.ne_of_lt (hs r hr))]
      exact ih hrows hr

/-! ## Rows and programs -/

/-- The row of a program. -/
def Program.row (p : Program) : Row :=
  ⟨p.name, p.id.text, p.hash, DeltaFile.Binary.encode p.deltas, p.created⟩

/-- A program can be read back from its row. -/
theorem program_row {p : Program} (hid : p.id.IsValid)
    (hsize : p.deltas.length ≤ Cbor.maxElements) : Row.program (Program.row p) = .ok p := by
  rw [Row.program, Program.row]
  simp only [Uuid.parse_text hid, DeltaFile.Binary.decode_encode, if_pos hsize]

theorem name_of_program {r : Row} {p : Program} (h : Row.program r = .ok p) :
    p.name = r.name := by
  rw [Row.program] at h
  split at h
  · cases h
  · split at h <;> cases h
    rfl

/-- What holds of every shelf that was filled by putting programs on it. -/
structure Sound (s : Shelf) : Prop where
  writable : s.isReadOnly = false
  ordered : Ordered s.rows
  program : ∀ r ∈ s.rows, ∃ p, Row.program r = .ok p ∧ p.hash = hash p.deltas

/-- The program of a name, if there is one that can be read. -/
def kept? (s : Shelf) (name : String) : Option Program :=
  (s.row? name).bind fun r => (Row.program r).toOption

theorem Sound.get_eq {s : Shelf} (h : s.Sound) (hopen : s.isOpen = true) (name : String) :
    s.get name = match s.kept? name with
      | none => .error (.notFound name)
      | some p => .ok p := by
  rw [get, kept?, hopen]
  cases hrow : s.row? name with
  | none => rfl
  | some r =>
    obtain ⟨p, hp, -⟩ := h.program r (List.mem_of_find?_eq_some hrow)
    simp [hp, Except.toOption]

/-- What is kept has its name and its digest. -/
theorem Sound.of_kept? {s : Shelf} (h : s.Sound) {name : String} {p : Program}
    (hp : s.kept? name = some p) : p.name = name ∧ p.hash = hash p.deltas := by
  rw [kept?, Option.bind_eq_some_iff] at hp
  obtain ⟨r, hrow, hr⟩ := hp
  obtain ⟨q, hq, hhash⟩ := h.program r (List.mem_of_find?_eq_some hrow)
  rw [hq] at hr
  cases hr
  have hname : r.name = name := by simpa using List.find?_some hrow
  exact ⟨(name_of_program hq).trans hname, hhash⟩

/-- If each item has a result, then the list has those. -/
theorem mapM_eq_ok {α β ε : Type} {f : α → Except ε β} {as : List α}
    (h : ∀ a ∈ as, ∃ b, f a = .ok b) :
    as.mapM f = .ok (as.filterMap fun a => (f a).toOption) := by
  induction as with
  | nil => rfl
  | cons a as ih =>
    obtain ⟨b, hb⟩ := h a List.mem_cons_self
    rw [List.mapM_cons, hb, ih fun x hx => h x (List.mem_cons_of_mem _ hx),
      List.filterMap_cons_some (b := b) (by rw [hb]; rfl)]
    rfl

theorem toOption_eq_some_iff {α ε : Type} {x : Except ε α} {a : α} :
    x.toOption = some a ↔ x = .ok a := by
  cases x <;> simp [Except.toOption]

/-- The list has each kept program once, in the order of the bytes of the names. -/
theorem Sound.list_eq {s : Shelf} (h : s.Sound) (hopen : s.isOpen = true) :
    ∃ ps, s.list = .ok ps ∧
      ps.Pairwise (fun p q => Utf8.encode p.name.toList < Utf8.encode q.name.toList) ∧
      ∀ p, p ∈ ps ↔ s.kept? p.name = some p := by
  have hlist : s.list = .ok (s.rows.filterMap fun r => (Row.program r).toOption) := by
    rw [list, hopen]
    exact mapM_eq_ok fun r hr => (h.program r hr).imp fun p hp => hp.1
  refine ⟨_, hlist, ?_, fun p => ?_⟩
  · refine List.Pairwise.filterMap _ (fun r r' hlt p hp p' hp' => ?_) h.ordered
    rw [name_of_program (toOption_eq_some_iff.mp hp), name_of_program (toOption_eq_some_iff.mp hp')]
    exact Utf8.encode_lt_encode hlt
  · rw [List.mem_filterMap, kept?, row?]
    constructor
    · rintro ⟨r, hr, hp⟩
      have hname := name_of_program (toOption_eq_some_iff.mp hp)
      rw [hname, h.ordered.find?_of_mem hr]
      exact hp
    · intro hkept
      obtain ⟨r, hrow, hp⟩ := Option.bind_eq_some_iff.mp hkept
      exact ⟨r, List.mem_of_find?_eq_some hrow, hp⟩

end Contour.Shelf
