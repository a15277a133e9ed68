import Contour.Proofs.Editor.Diagnostics
import Contour.Proofs.Source.Bounds
import Contour.Proofs.Utf8

/-!
# Diagnostics in the bounds of their documents

What is shown about a document points into it: at a line that the document has, and at bytes that
the line has (`Diagnostic.LiesIn`).

The number of the line comes from elsewhere. For assembly it is the place of the line among the
lines of the text. For a program text it is that of an error, which is counted among the pieces of
the text, or is whatever number the checker of scripts reports; `diagnostics_lie_in_document` is
therefore about any checker that there could be (`Source.Check`). Everything on the way that is
looked up by its place may fail to be there (`lookup?`), and the theorem says that it never does.
-/

namespace Contour

namespace Delta

/-- The changes along a list of shapes, each between two that are looked up by their places. -/
def along? (shapes : List Shape) : Option (List Delta) :=
  (List.range (shapes.length - 1)).mapM fun i => do
    let a ← shapes[i]?
    let b ← shapes[i + 1]?
    some (between a b)

theorem along?_eq (shapes : List Shape) : along? shapes = some (along shapes) := by
  induction shapes with
  | nil => rfl
  | cons a rest ih =>
    cases rest with
    | nil => rfl
    | cons b rest =>
      have hlater : (List.range rest.length).mapM (fun i => do
          let a ← (a :: b :: rest)[i + 1]?
          let b ← (a :: b :: rest)[i + 1 + 1]?
          some (between a b)) = some (along (b :: rest)) := ih
      rw [along?, along, List.length_cons, Nat.add_sub_cancel, List.length_cons,
        List.range_succ_eq_map, List.mapM_cons, List.mapM_map]
      show Option.bind (some (between a b)) _ = _
      rw [Option.bind_some]
      show Option.bind ((List.range rest.length).mapM fun i => do
        let a ← (a :: b :: rest)[i + 1]?
        let b ← (a :: b :: rest)[i + 1 + 1]?
        some (between a b)) _ = _
      rw [hlater]
      rfl

end Delta

namespace Source

/-- A check of texts: nothing is wrong, or there is a remark, with the number of a line if one is
known. The number can be any. -/
abbrev Check := List Char → Option (Option Int × Script.Remark)

/-- The check that texts are in the language. -/
def Check.language : Check := fun text =>
  (Script.check text).map fun finding => (some finding.line, finding.remark)

/-- The line on which a remark is reported: the one that was given, if there is one up to the last
significant line with its number, and otherwise that last line. -/
def heed (last : Nat) : Option Int → Nat
  | some n => if 1 ≤ n ∧ n ≤ last then n.toNat else last
  | none => last

/-- What comes of the lines of an outline: they are taken if nothing is wrong with the text. -/
def accept (check : Check) (text : List Char) (lines : List Outline.Line) :
    Except Error (List Outline.Line) :=
  match lines.getLast? with
  | none => .ok []
  | some last =>
    match check (Text.unifyLineEnds text) with
    | none => .ok lines
    | some (line?, remark) => .error ⟨heed last.number line?, .script remark⟩

/-- `scan` with lookups, for any check. -/
def scanWith? (check : Check) (text : List Char) : Option (Except Error (List Outline.Line)) :=
  (Outline.scan? text).map fun
    | .error e => .error ⟨e.line, .outline e.flaw⟩
    | .ok lines => accept check text lines

/-- `deltas` with lookups, for any check. -/
def deltasWith? (check : Check) (text : List Char) : Option (Except Error (List Delta)) :=
  (scanWith? check text).bind fun
    | .error e => some (.error e)
    | .ok lines => (Delta.along? (lines.map Outline.Line.shape)).map .ok

theorem heed_bounds {last : Nat} (h : 1 ≤ last) (line? : Option Int) :
    1 ≤ heed last line? ∧ heed last line? ≤ last := by
  unfold heed
  split
  · split
    · omega
    · omega
  · omega

theorem heed_some (last n : Nat) : heed last (some n) = clip last n := by
  simp only [heed, clip, Nat.one_le_cast, Nat.cast_le, Int.toNat_natCast]

/-- An error names a line of the text, and the line is not blank unless the error is one that the
check has found. -/
structure Error.LiesIn (e : Error) (text : List Char) : Prop where
  pos : 1 ≤ e.line
  line : ∃ line, (Text.lines text)[e.line - 1]? = some line ∧
    ∀ flaw, e.cause = .outline flaw → ∃ c ∈ line, Text.isBlank c = false

theorem liesIn_of_accept {check : Check} {text : List Char} {lines : List Outline.Line}
    (hscan : Outline.scan text = .ok lines) {e : Error} (h : accept check text lines = .error e) :
    e.LiesIn text := by
  unfold accept at h
  cases hlast : lines.getLast? with
  | none =>
    rw [hlast] at h
    cases h
  | some last =>
    rw [hlast] at h
    obtain ⟨hone, line, hline, -⟩ :=
      Outline.exists_line_of_mem_scan hscan (List.mem_of_getLast? hlast)
    cases hcheck : check (Text.unifyLineEnds text) with
    | none =>
      rw [hcheck] at h
      cases h
    | some found =>
      obtain ⟨line?, remark⟩ := found
      rw [hcheck] at h
      cases h
      -- The line is at or before the last significant one, which is there.
      obtain ⟨hlow, hhigh⟩ := heed_bounds hone line?
      have hlength := (List.getElem?_eq_some_iff.mp hline).1
      have hthere : heed last.number line? - 1 < (Text.lines text).length := by omega
      exact ⟨hlow, _, List.getElem?_eq_getElem hthere, nofun⟩

/-- A program or an error comes of every text, without a failed lookup. -/
theorem deltasWith?_cases (check : Check) (text : List Char) :
    (∃ ds, deltasWith? check text = some (.ok ds)) ∨
      ∃ e, deltasWith? check text = some (.error e) ∧ e.LiesIn text := by
  rw [deltasWith?, scanWith?, Outline.scan?_eq, Option.map_some, Option.bind_some]
  cases hscan : Outline.scan text with
  | error e =>
    obtain ⟨hone, line, hline, hblank⟩ := Outline.exists_line_of_scan_error hscan
    exact .inr ⟨_, rfl, hone, line, hline, fun _ _ => hblank⟩
  | ok lines =>
    dsimp only
    cases haccept : accept check text lines with
    | error e => exact .inr ⟨e, rfl, liesIn_of_accept hscan haccept⟩
    | ok lines' =>
      dsimp only
      rw [Delta.along?_eq]
      exact .inl ⟨_, rfl⟩

theorem accept_language {text : List Char} {lines : List Outline.Line}
    (h : Outline.scan text = .ok lines) : accept .language text lines = scan text := by
  simp only [accept, scan, h]
  cases lines.getLast? with
  | none => rfl
  | some last =>
    unfold checkScript Check.language
    -- Nothing below may look into the check: it is far too large to evaluate.
    generalize Script.check (Text.unifyLineEnds text) = checked
    cases checked with
    | none => rfl
    | some finding =>
      apply congrArg Except.error
      show (⟨heed last.number (some (finding.line : Int)), .script finding.remark⟩ : Error) = _
      rw [heed_some]

theorem deltasWith?_language (text : List Char) :
    deltasWith? Check.language text = some (deltas text) := by
  rw [deltasWith?, scanWith?, Outline.scan?_eq, Option.map_some, Option.bind_some]
  cases hscan : Outline.scan text with
  | error e =>
    rw [deltas, scan, hscan]
    rfl
  | ok lines =>
    dsimp only
    rw [accept_language hscan, deltas]
    cases scan text with
    | error e => rfl
    | ok lines' =>
      dsimp only
      rw [Delta.along?_eq]
      rfl

end Source

namespace Editor

/-! ## Columns -/

theorem byteLength_append (s t : List Char) :
    byteLength (s ++ t) = byteLength s + byteLength t := by
  rw [byteLength, Utf8.encode_append, List.length_append, byteLength, byteLength]

theorem byteLength_dropEndWhile_le (p : Char → Bool) (s : List Char) :
    byteLength (Text.dropEndWhile p s) ≤ byteLength s := by
  have hsplit : s = Text.dropEndWhile p s ++ (s.reverse.takeWhile p).reverse := by
    rw [Text.dropEndWhile, ← List.reverse_append, List.takeWhile_append_dropWhile,
      List.reverse_reverse]
  have hlength := congrArg byteLength hsplit
  rw [byteLength_append] at hlength
  omega

/-- A diagnostic lies in a text: the text has its line, and the line has its bytes. -/
def Diagnostic.LiesIn (d : Diagnostic) (text : List Char) : Prop :=
  ∃ line, (Text.lines text)[d.line]? = some line ∧ d.start ≤ d.stop ∧ d.stop ≤ byteLength line

theorem Diagnostic.liesIn_ofLine {text line : List Char} {n : Nat}
    (hline : (Text.lines text)[n]? = some line) (severity : Severity) (message : String) :
    (Diagnostic.ofLine n line severity message).LiesIn text := by
  refine ⟨line, hline, Nat.le_max_left _ _, ?_⟩
  apply Nat.max_le.mpr
  exact ⟨Nat.sub_le _ _, byteLength_dropEndWhile_le _ line⟩

/-! ## Diagnostics -/

/-- What stands at a place of a list, if the list has that place. -/
def lookup? {α : Type} (xs : List α) (place : Int) : Option α :=
  if 0 ≤ place then xs[place.toNat]? else none

/-- `sourceDiagnostics` with lookups, for any check. The lines are looked up if the number of the
error is not past them. -/
def sourceDiagnosticsWith? (check : Source.Check) (text : List Char) : Option (List Diagnostic) :=
  (Source.deltasWith? check text).bind fun
    | .ok _ => some []
    | .error e =>
      let n : Int := e.line - 1
      let line? := if n < (Text.lines text).length then lookup? (Text.lines text) n else some []
      line?.map fun line => [Diagnostic.ofLine n.toNat line .error e.cause.message]

/-- `diagnosticsOf` with lookups, for any check. -/
def diagnosticsWith? (check : Source.Check) (uri : String) (text : List Char) :
    Option (List Diagnostic) :=
  match Language.ofUri uri with
  | .source => sourceDiagnosticsWith? check text
  | .assembly => some (assemblyDiagnostics text)

theorem liesIn_of_mem_assemblyDiagnostics {text : List Char} {d : Diagnostic}
    (hd : d ∈ assemblyDiagnostics text) : d.LiesIn text := by
  obtain ⟨k, line, severity, message, hline, -, rfl⟩ := mem_lineDiagnostics.mp hd
  rw [Nat.zero_add]
  exact Diagnostic.liesIn_ofLine hline severity message

theorem sourceDiagnosticsWith?_of_ok {check : Source.Check} {text : List Char} {ds : List Delta}
    (h : Source.deltasWith? check text = some (.ok ds)) :
    sourceDiagnosticsWith? check text = some [] := by
  rw [sourceDiagnosticsWith?, h, Option.bind_some]

/-- The line of an error is looked up, and there it is. -/
theorem sourceDiagnosticsWith?_of_error {check : Source.Check} {text : List Char}
    {e : Source.Error} (h : Source.deltasWith? check text = some (.error e))
    (hlies : e.LiesIn text) :
    ∃ line, (Text.lines text)[e.line - 1]? = some line ∧ sourceDiagnosticsWith? check text =
      some [Diagnostic.ofLine (e.line - 1) line .error e.cause.message] := by
  obtain ⟨hpos, line, hline, -⟩ := hlies
  have hplace : (e.line : Int) - 1 = (e.line - 1 : Nat) := by omega
  have hlength := (List.getElem?_eq_some_iff.mp hline).1
  refine ⟨line, hline, ?_⟩
  rw [sourceDiagnosticsWith?, h, Option.bind_some]
  simp only [hplace, lookup?, Int.toNat_natCast, Nat.cast_lt, if_pos hlength, Int.natCast_nonneg,
    if_true, hline, Option.map_some]

theorem sourceDiagnosticsWith?_language (text : List Char) :
    sourceDiagnosticsWith? .language text = some (sourceDiagnostics text) := by
  have hdeltas := Source.deltasWith?_language text
  obtain ⟨ds, hds⟩ | ⟨e, he, hlies⟩ := Source.deltasWith?_cases .language text
  · have hok : Source.deltas text = .ok ds := Option.some.inj (hdeltas.symm.trans hds)
    rw [sourceDiagnosticsWith?_of_ok hds, sourceDiagnostics, hok]
  · have herror : Source.deltas text = .error e := Option.some.inj (hdeltas.symm.trans he)
    obtain ⟨line, hline, hdiagnostics⟩ := sourceDiagnosticsWith?_of_error he hlies
    rw [hdiagnostics, sourceDiagnostics, herror]
    simp only [hline, Option.getD_some]

theorem diagnosticsWith?_language (uri : String) (text : List Char) :
    diagnosticsWith? .language uri text = some (diagnosticsOf uri text) := by
  unfold diagnosticsWith? diagnosticsOf
  cases Language.ofUri uri with
  | assembly => rfl
  | source => exact sourceDiagnosticsWith?_language text

/-- What is shown about a document points into it, whatever the check of scripts reports. Nothing
that is looked up on the way is missing, and every diagnostic is on a line of the document and at
bytes of that line. A program text has one diagnostic if there is an error in it, and otherwise
none; the error is on a line of the text, the diagnostic is on the same one, counted from zero, and
unless the error is one that the check has found, that line is not blank. With the check that a
text is in the language these are the diagnostics and the errors of the document. -/
theorem diagnostics_lie_in_document (uri : String) (text : List Char) :
    (∀ check, ∃ ds, diagnosticsWith? check uri text = some ds ∧
      (∀ d ∈ ds, d.LiesIn text) ∧
      (Language.ofUri uri = .source →
        ((∃ program, Source.deltasWith? check text = some (.ok program)) ∧ ds = []) ∨
          ∃ e d, Source.deltasWith? check text = some (.error e) ∧ ds = [d] ∧
            d.line + 1 = e.line ∧ e.LiesIn text)) ∧
    diagnosticsWith? .language uri text = some (diagnosticsOf uri text) ∧
    Source.deltasWith? .language text = some (Source.deltas text) := by
  refine ⟨fun check => ?_, diagnosticsWith?_language uri text, Source.deltasWith?_language text⟩
  unfold diagnosticsWith?
  cases Language.ofUri uri with
  | assembly => exact ⟨_, rfl, fun d hd => liesIn_of_mem_assemblyDiagnostics hd, nofun⟩
  | source =>
    dsimp only
    obtain ⟨program, hprogram⟩ | ⟨e, he, hlies⟩ := Source.deltasWith?_cases check text
    · refine ⟨[], sourceDiagnosticsWith?_of_ok hprogram, nofun, fun _ => ?_⟩
      exact .inl ⟨⟨program, hprogram⟩, rfl⟩
    · obtain ⟨line, hline, hdiagnostics⟩ := sourceDiagnosticsWith?_of_error he hlies
      refine ⟨_, hdiagnostics, fun d hd => ?_, fun _ => ?_⟩
      · obtain rfl := List.mem_singleton.mp hd
        exact Diagnostic.liesIn_ofLine hline _ _
      · exact .inr ⟨e, _, he, rfl, Nat.sub_add_cancel hlies.pos, hlies⟩

/-- A check that reports a line far below the text: the last significant line is shown. -/
theorem diagnostics_lie_in_document_of_stray_number :
    let check : Source.Check := fun _ => some (some 999, .invalid)
    let text := "x = 1\r\ny\n\n\n".toList
    Language.ofUri "a.fy" = .source ∧
      ∃ d, diagnosticsWith? check "a.fy" text = some [d] ∧ d.line = 1 ∧ d.LiesIn text := by
  intro check text
  have hsource : Language.ofUri "a.fy" = .source := by decide +kernel
  have hfails : Source.deltasWith? check text = some (.error ⟨2, .script .invalid⟩) := by
    decide +kernel
  obtain ⟨hbounds, -⟩ := diagnostics_lie_in_document "a.fy" text
  obtain ⟨ds, hds, hlies, hone⟩ := hbounds check
  obtain ⟨⟨program, hprogram⟩, -⟩ | ⟨e, d, he, rfl, hline, -⟩ := hone hsource
  · rw [hprogram] at hfails
    cases hfails
  · rw [he] at hfails
    cases hfails
    exact ⟨hsource, d, hds, Nat.succ.inj hline, hlies d List.mem_cons_self⟩

end Editor

end Contour
