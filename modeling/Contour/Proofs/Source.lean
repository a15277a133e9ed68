import Contour.Proofs.Machine.Words
import Contour.Proofs.Outline
import Contour.Proofs.Text.Lines
import Contour.Source

/-!
# The contours of texts

A text without open string literals has a sound outline exactly if its significant lines are those
of nested blocks. The depth of a line is then the number of the blocks around it, and the contour of
the text rises by one after each line that opens a block, rises nowhere else, and never falls below
the depth that it starts from.
-/

namespace Contour

namespace Outline

/-- The lines of a text, blank ones and comments too. -/
def rawLines (text : List Char) : List (List Char) := Text.pieces '\n' (Text.unifyLineEnds text)

/-- Every string literal of the text is closed on its line. -/
def StringsClosed (text : List Char) : Prop :=
  ∀ raw ∈ rawLines text, (withoutComment? raw).isSome

instance (text : List Char) : Decidable (StringsClosed text) :=
  inferInstanceAs (Decidable (∀ raw ∈ rawLines text, (withoutComment? raw).isSome))

/-- The mark of a line, if it is significant. -/
def mark? (raw : List Char) : Option Mark :=
  (withoutComment? raw).bind fun code =>
    let (width, body) := indentAndCode 0 (Text.trimEnd code)
    if body.isEmpty then none else some ⟨width, opensBlock body⟩

/-- The marks of the significant lines of a text. -/
def marks (text : List Char) : List Mark := (rawLines text).filterMap mark?

/-- Where a line stands. -/
def Line.place (l : Line) : Place := ⟨⟨l.indent, opensBlock l.code⟩, l.depth⟩

/-! ## Marks -/

/-- What is left of the outcome of scanning when only places and flaws are looked at; the last line
may not open a block. -/
def close : Except Error (List Line × Bool) → Except Flaw (List Place)
  | .error e => .error e.flaw
  | .ok (lines, opens) => if opens then .error .missingBlock else .ok (lines.map Line.place)

theorem close_linesFrom {raws : List (List Char)}
    (h : ∀ raw ∈ raws, (withoutComment? raw).isSome) (number : Nat) (levels : List Nat)
    (opens : Bool) :
    close (linesFrom number levels opens raws) = settle levels opens (raws.filterMap mark?) := by
  induction raws generalizing number levels opens with
  | nil => rfl
  | cons raw raws ih =>
    obtain ⟨code, hcode⟩ := Option.isSome_iff_exists.mp (h raw List.mem_cons_self)
    have hrest := ih fun raw' hraw => h raw' (List.mem_cons_of_mem _ hraw)
    simp only [linesFrom, hcode, List.filterMap_cons, mark?, Option.bind_some]
    generalize indentAndCode 0 (Text.trimEnd code) = split
    obtain ⟨indent, body⟩ := split
    cases hbody : body.isEmpty with
    | true => simpa [hbody] using hrest (number + 1) levels opens
    | false =>
      simp only [Bool.false_eq_true, if_false, settle]
      cases nest levels opens indent with
      | error flaw => rfl
      | ok levels' =>
        dsimp only
        rw [← hrest (number + 1) levels' (opensBlock body)]
        generalize linesFrom (number + 1) levels' (opensBlock body) raws = more
        obtain e | ⟨lines, last⟩ := more
        · rfl
        · cases last <;> rfl

/-- Without significant lines nothing is opened. -/
theorem opens_of_linesFrom_nil {raws : List (List Char)} {number : Nat} {levels : List Nat}
    {opens last : Bool} (h : linesFrom number levels opens raws = .ok ([], last)) :
    last = opens := by
  induction raws generalizing number levels opens with
  | nil => cases h; rfl
  | cons raw raws ih =>
    simp only [linesFrom] at h
    split at h
    · cases h
    · split at h
      · exact ih h
      · split at h
        · cases h
        · -- A significant line would be among those that were found.
          generalize linesFrom _ _ _ raws = more at h
          cases more <;> cases h

/-- The outcome of scanning, up to the places of the lines and the kind of a flaw, depends on the
marks alone. -/
theorem close_scan {text : List Char} (h : StringsClosed text) :
    ((scan text).map (List.map Line.place)).mapError Error.flaw =
      settle [0] false (marks text) := by
  rw [marks, ← close_linesFrom h 1, scan]
  cases hlines : linesFrom 1 [0] false (Text.pieces '\n' (Text.unifyLineEnds text)) with
  | error e =>
    rw [rawLines, hlines]
    rfl
  | ok found =>
    obtain ⟨lines, opens⟩ := found
    rw [rawLines, hlines]
    cases hlast : lines.getLast? with
    | none =>
      rw [List.getLast?_eq_none_iff] at hlast
      subst hlast
      rw [opens_of_linesFrom_nil hlines]
      rfl
    | some last =>
      simp only [close]
      cases opens <;> simp [hlast, Except.map, Except.mapError, bind, Except.bind]

theorem settle_of_scan {text : List Char} (h : StringsClosed text) {lines : List Line}
    (hlines : scan text = .ok lines) :
    settle [0] false (marks text) = .ok (lines.map Line.place) := by
  rw [← close_scan h, hlines]
  rfl

/-- The text is accepted if its marks are. -/
theorem scan_of_settle {text : List Char} (h : StringsClosed text) {ps : List Place}
    (hps : settle [0] false (marks text) = .ok ps) :
    ∃ lines, scan text = .ok lines ∧ lines.map Line.place = ps := by
  rw [← close_scan h] at hps
  cases hscan : scan text with
  | error e => simp [hscan, Except.map, Except.mapError] at hps
  | ok lines =>
    refine ⟨lines, rfl, ?_⟩
    simpa [hscan, Except.map, Except.mapError] using hps

/-- A text is accepted exactly if its significant lines are those of nested blocks. -/
theorem exists_scan_eq_ok_iff {text : List Char} (h : StringsClosed text) :
    (∃ lines, scan text = .ok lines) ↔
      marks text = [] ∨ ∃ ps, Block 0 0 ps ∧ ps.map Place.toMark = marks text := by
  constructor
  · rintro ⟨lines, hlines⟩
    obtain ⟨hitems, hmarks⟩ := settle_eq_ok_iff.mp (settle_of_scan h hlines)
    by_cases hempty : lines.map Line.place = []
    · exact .inl (by rw [← hmarks, hempty, List.map_nil])
    · exact .inr ⟨_, ⟨hempty, hitems⟩, hmarks⟩
  · rintro (hempty | ⟨ps, hblock, hmarks⟩)
    · obtain ⟨lines, hlines, -⟩ := scan_of_settle h (settle_eq_ok_iff.mpr ⟨.none, hempty.symm⟩)
      exact ⟨lines, hlines⟩
    · obtain ⟨lines, hlines, -⟩ := scan_of_settle h (settle_eq_ok_iff.mpr ⟨hblock.2, hmarks⟩)
      exact ⟨lines, hlines⟩

/-! ## Sizes -/

/-- No line is nested deeper than the text is long. -/
theorem depth_le_length {text : List Char} (h : StringsClosed text) {lines : List Line}
    (hlines : scan text = .ok lines) : ∀ l ∈ lines, l.depth ≤ text.length := by
  intro l hl
  obtain ⟨hitems, hmarks⟩ := settle_eq_ok_iff.mp (settle_of_scan h hlines)
  have hdepth : l.depth < 0 + (lines.map Line.place).length :=
    hitems.depth_lt l.place (List.mem_map_of_mem hl)
  have hcount : (lines.map Line.place).length = (marks text).length := by
    rw [← hmarks, List.length_map, List.length_map, List.length_map]
  have hmarks : (marks text).length ≤ (rawLines text).length := List.length_filterMap_le ..
  have hraws : (rawLines text).length ≤ (Text.unifyLineEnds text).length + 1 :=
    Text.length_pieces_le ..
  have hends := Text.length_unifyLineEnds_le text
  omega

/-! ## The contour -/

/-- Between lines that are not nested too deep, the index of the change is the difference of the
depths. -/
theorem toInt_index_between {a b : Line} (ha : a.depth < 2 ^ 63) (hb : b.depth < 2 ^ 63) :
    (Delta.between a.shape b.shape).index.toInt = (b.depth : Int) - a.depth := by
  have hia : (Int64.ofNat a.depth).toInt = a.depth := Int64.toInt_ofNat_of_lt ha
  have hib : (Int64.ofNat b.depth).toInt = b.depth := Int64.toInt_ofNat_of_lt hb
  show (Int64.ofNat b.depth - Int64.ofNat a.depth).toInt = _
  rw [Machine.toInt_sub_of_fits (by omega) (by omega), hia, hib]

theorem length_along (shapes : List Shape) : (Delta.along shapes).length = shapes.length - 1 := by
  induction shapes with
  | nil => rfl
  | cons a rest ih =>
    cases rest with
    | nil => rfl
    | cons b rest => simpa [Delta.along] using ih

/-- A contour rises by at most one, and it rises exactly after a line that opens a block. -/
theorem index_along {lines : List Line} (hchain : (lines.map Line.place).IsChain Place.Neighbours)
    (hsmall : ∀ l ∈ lines, l.depth < 2 ^ 63) {k : Nat} {d : Delta}
    (hd : (Delta.along (lines.map Line.shape))[k]? = some d) :
    ∃ l, lines[k]? = some l ∧ d.index ≤ 1 ∧ (d.index = 1 ↔ opensBlock l.code = true) := by
  induction lines generalizing k with
  | nil => simp [Delta.along] at hd
  | cons a rest ih =>
    cases rest with
    | nil => simp [Delta.along] at hd
    | cons b rest =>
      rw [List.map_cons, List.map_cons, List.isChain_cons_cons] at hchain
      cases k with
      | zero =>
        obtain rfl : Delta.between a.shape b.shape = d := by simpa [Delta.along] using hd
        have hindex := toInt_index_between (hsmall a (by simp)) (hsmall b (by simp))
        obtain ⟨hle, hiff⟩ : b.depth ≤ a.depth + 1 ∧
          (b.depth = a.depth + 1 ↔ opensBlock a.code = true) := hchain.1
        refine ⟨a, rfl, ?_, ?_⟩
        · rw [Int64.le_iff_toInt_le, hindex, show (1 : Int64).toInt = 1 from rfl]
          omega
        · rw [← hiff, ← Int64.toInt_inj, hindex, show (1 : Int64).toInt = 1 from rfl]
          omega
      | succ k =>
        have hsmall' : ∀ l ∈ b :: rest, l.depth < 2 ^ 63 :=
          fun l hl => hsmall l (List.mem_cons_of_mem _ hl)
        simpa using ih hchain.2 hsmall' (k := k) (by simpa [Delta.along] using hd)

/-- The indices up to a line add up to its depth, which is not negative. -/
theorem sum_index_along {l : Line} {lines : List Line}
    (hsmall : ∀ l' ∈ l :: lines, l'.depth < 2 ^ 63) (n : Nat) :
    0 ≤ (l.depth : Int) +
      (((Delta.along ((l :: lines).map Line.shape)).take n).map (·.index.toInt)).sum := by
  induction lines generalizing l n with
  | nil => simp [Delta.along]
  | cons b rest ih =>
    cases n with
    | zero => simp
    | succ n =>
      have hindex := toInt_index_between (hsmall l (by simp)) (hsmall b (by simp))
      have hrest := ih (fun l' hl => hsmall l' (List.mem_cons_of_mem _ hl)) n
      simp only [List.map_cons, Delta.along, List.take_succ_cons, List.sum_cons, hindex] at hrest ⊢
      omega

end Outline

open Outline (StringsClosed marks Items Block Place Line opensBlock)

namespace Source

/-- The check of the language rejects texts and changes no line. -/
theorem scan_of_eq_ok {text : List Char} {lines : List Line} (h : scan text = .ok lines) :
    Outline.scan text = .ok lines := by
  rw [scan] at h
  cases hscan : Outline.scan text with
  | error e => simp [hscan] at h
  | ok lines' =>
    rw [hscan] at h
    cases hlast : lines'.getLast? with
    | none =>
      rw [List.getLast?_eq_none_iff] at hlast
      subst hlast
      simpa using h
    | some last =>
      simp only [hlast] at h
      cases hcheck : checkScript text last.number with
      | error e => simp [hcheck, Except.map] at h
      | ok _ =>
        simp only [hcheck, Except.map] at h
        cases h
        rfl

theorem exists_lines_of_deltas {text : List Char} {ds : List Delta} (h : deltas text = .ok ds) :
    ∃ lines, scan text = .ok lines ∧ ds = Delta.along (lines.map Line.shape) := by
  rw [deltas] at h
  cases hscan : scan text with
  | error e => simp [hscan, Except.map] at h
  | ok lines =>
    simp only [hscan, Except.map, Except.ok.injEq] at h
    exact ⟨lines, rfl, h.symm⟩

/-- A text in which every string literal is closed has a sound outline exactly if its significant
lines are those of nested blocks; the lines are then given the numbers of the blocks around them,
and in no other way could they be nested. What is wrong with another text is how it is nested. The
program of a text in the language is the contour of these lines: one change from each line to the
next, the index of which is at most one, and is one exactly after a line that opens a block. The
indices never add up to less than zero. -/
theorem outline_isBlock_and_deltas_rise {text : List Char} (h : StringsClosed text) :
    ((∃ lines, Outline.scan text = .ok lines) ↔
      marks text = [] ∨ ∃ ps, Block 0 0 ps ∧ ps.map Place.toMark = marks text) ∧
    (∀ e, Outline.scan text = .error e → e.flaw ≠ .openString) ∧
    (∀ lines, Outline.scan text = .ok lines →
      (lines = [] ∨ Block 0 0 (lines.map Line.place)) ∧
      (lines.map Line.place).map Place.toMark = marks text ∧
      ∀ ps, Block 0 0 ps → ps.map Place.toMark = marks text → ps = lines.map Line.place) ∧
    (∀ lines, scan text = .ok lines → Outline.scan text = .ok lines) ∧
    (text.length < 2 ^ 63 → ∀ ds, deltas text = .ok ds →
      ∃ lines, scan text = .ok lines ∧ ds.length = lines.length - 1 ∧
        (∀ (k : Nat) (d : Delta), ds[k]? = some d →
          ∃ l, lines[k]? = some l ∧ d.index ≤ 1 ∧ (d.index = 1 ↔ l.code.getLast? = some ':')) ∧
        ∀ n, 0 ≤ ((ds.take n).map (·.index.toInt)).sum) := by
  refine ⟨Outline.exists_scan_eq_ok_iff h, fun e he => ?_, fun lines hlines => ?_,
    fun lines => scan_of_eq_ok, fun hlength ds hds => ?_⟩
  · have hsettle := Outline.close_scan h
    rw [he] at hsettle
    exact Outline.flaw_of_settle hsettle.symm
  · have hsettle := Outline.settle_of_scan h hlines
    obtain ⟨hitems, hmarks⟩ := Outline.settle_eq_ok_iff.mp hsettle
    refine ⟨?_, hmarks, fun ps hps hsame => ?_⟩
    · by_cases hempty : lines = []
      · exact .inl hempty
      · exact .inr ⟨by simpa using hempty, hitems⟩
    · rw [Outline.settle_eq_ok_iff.mpr ⟨hps.2, hsame⟩, Except.ok.injEq] at hsettle
      exact hsettle
  · obtain ⟨lines, hscan, rfl⟩ := exists_lines_of_deltas hds
    have hlines := scan_of_eq_ok hscan
    have hsettle := Outline.settle_of_scan h hlines
    have hsmall : ∀ l ∈ lines, l.depth < 2 ^ 63 :=
      fun l hl => Nat.lt_of_le_of_lt (Outline.depth_le_length h hlines l hl) hlength
    refine ⟨lines, hscan, by rw [Outline.length_along, List.length_map], fun k d hd => ?_,
      fun n => ?_⟩
    · have hchain := (Outline.isChain_of_settle (List.mem_singleton_self 0) hsettle 0).tail
      obtain ⟨l, hl, hle, hone⟩ := Outline.index_along hchain hsmall hd
      exact ⟨l, hl, hle, by rw [hone, opensBlock, beq_iff_eq]⟩
    · cases lines with
      | nil => simp [Delta.along]
      | cons l rest =>
        -- The first line is in no block.
        obtain ⟨hitems, -⟩ := Outline.settle_eq_ok_iff.mp hsettle
        have hfirst : l.depth = 0 := hitems.head.2
        simpa [hfirst] using Outline.sum_index_along hsmall n

/-- A block in a block, both of which end at once, and a colon in a string and in a comment. -/
theorem outline_isBlock_and_deltas_rise_two_levels :
    let text := "if a:\n  b\n  if c: # :\n      d = ':'\ne".toList
    StringsClosed text ∧
      ∃ lines, Outline.scan text = .ok lines ∧ lines.map Line.depth = [0, 1, 1, 2, 0] := by
  intro text
  have hclosed : StringsClosed text := by decide +kernel
  have hblock : Block 0 0 [⟨⟨0, true⟩, 0⟩, ⟨⟨2, false⟩, 1⟩, ⟨⟨2, true⟩, 1⟩, ⟨⟨6, false⟩, 2⟩,
      ⟨⟨0, false⟩, 0⟩] := by
    have hinner : Items 2 6 [⟨⟨6, false⟩, 2⟩] := .line .none
    have hmiddle : Items 1 2 [⟨⟨2, false⟩, 1⟩, ⟨⟨2, true⟩, 1⟩, ⟨⟨6, false⟩, 2⟩] :=
      .line (.block (by decide) (by decide) hinner .none)
    exact ⟨by decide, .block (by decide) (by decide) hmiddle (.line .none)⟩
  have hmarks : marks text = [⟨0, true⟩, ⟨2, false⟩, ⟨2, true⟩, ⟨6, false⟩, ⟨0, false⟩] := by
    decide +kernel
  obtain ⟨haccepts, -, hplaces, -⟩ := outline_isBlock_and_deltas_rise hclosed
  obtain ⟨lines, hlines⟩ := haccepts.mpr (.inr ⟨_, hblock, hmarks.symm⟩)
  have hplace := (hplaces lines hlines).2.2 _ hblock hmarks.symm
  have hdepth : lines.map Line.depth = (lines.map Line.place).map Place.depth := by
    rw [List.map_map]
    rfl
  exact ⟨hclosed, lines, hlines, by rw [hdepth, ← hplace]; rfl⟩

end Source

end Contour
