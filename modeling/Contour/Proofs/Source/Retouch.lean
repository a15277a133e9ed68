import Contour.Proofs.Outline.Literals
import Contour.Proofs.Source.Lines
import Mathlib.Logic.Relation

/-!
# Retouched texts

A text is retouched when a line without code is put in or left out, when blanks or a comment are
added at the end of a line, or when its line ends are written in the other way (`Retouch`). None of
these changes what the lines of the text add to its outline (`contents?_of_retouch`), and the
outline is determined by that but for the numbers of its lines (`scan_of_contents?`). Retouching a
text any number of times leaves its program as it is, as long as the text stays in the language
(`deltas_of_retouch`).
-/

namespace Contour

namespace Outline

/-! ## Margins -/

/-- What may follow the code of a line: blanks, and a comment after them. -/
def IsMargin (s : List Char) : Prop :=
  '\n' ∉ s ∧ ∃ blanks remark, s = blanks ++ remark ∧ (∀ c ∈ blanks, Text.isBlank c = true) ∧
    ∀ c ∈ remark.head?, c = '#'

theorem isMargin_return : IsMargin ['\r'] :=
  ⟨by decide, ['\r'], [], rfl, List.all_eq_true.mp (by decide), nofun⟩

theorem not_isQuote_of_isBlank {c : Char} (h : Text.isBlank c = true) : isQuote c = false := by
  refine Bool.eq_false_iff.mpr fun hquote => ?_
  simp only [isQuote, Bool.or_eq_true, beq_iff_eq] at hquote
  rcases hquote with rfl | rfl <;> exact absurd h (by decide)

theorem isPlain_of_isBlank {blanks : List Char} (h : ∀ c ∈ blanks, Text.isBlank c = true) :
    IsPlain blanks := by
  induction blanks with
  | nil => exact ⟨[], .finish⟩
  | cons c blanks ih =>
    rw [List.forall_mem_cons] at h
    obtain ⟨ts, hreads⟩ := ih h.2
    have hhash : c ≠ '#' := by
      rintro rfl
      exact absurd h.1 (by decide)
    exact ⟨_, .other (not_isQuote_of_isBlank h.1) hhash hreads⟩

/-- A margin is cut down to blanks. -/
theorem IsMargin.exists_withoutComment? {s : List Char} (h : IsMargin s) :
    ∃ blanks, withoutComment? s = some blanks ∧ ∀ c ∈ blanks, Text.isBlank c = true := by
  obtain ⟨-, blanks, remark, rfl, hblanks, hremark⟩ := h
  refine ⟨blanks, withoutComment?_eq_some_iff.mpr ⟨isPlain_of_isBlank hblanks, ?_⟩, hblanks⟩
  cases remark with
  | nil => exact .inl (List.append_nil blanks)
  | cons c remark => exact .inr ⟨remark, by rw [hremark c rfl]⟩

/-- A margin behind a line adds blanks to its code, if it adds anything. -/
theorem exists_withoutComment?_append {line code margin : List Char} (hmargin : IsMargin margin)
    (h : withoutComment? line = some code) :
    ∃ blanks, withoutComment? (line ++ margin) = some (code ++ blanks) ∧
      ∀ c ∈ blanks, Text.isBlank c = true := by
  obtain ⟨hplain, rfl | ⟨remark, rfl⟩⟩ := withoutComment?_eq_some_iff.mp h
  · obtain ⟨blanks, hblanks, hblank⟩ := hmargin.exists_withoutComment?
    exact ⟨blanks, by rw [hplain.withoutComment?_append, hblanks]; rfl, hblank⟩
  · refine ⟨[], withoutComment?_eq_some_iff.mpr ?_, by simp⟩
    rw [List.append_nil]
    exact ⟨hplain, .inr ⟨remark ++ margin, by simp⟩⟩

theorem content?_append {line margin : List Char} (hmargin : IsMargin margin)
    (h : (content? line).isSome) : content? (line ++ margin) = content? line := by
  rw [content?, Option.isSome_map] at h
  obtain ⟨code, hcode⟩ := Option.isSome_iff_exists.mp h
  obtain ⟨blanks, happend, hblanks⟩ := exists_withoutComment?_append hmargin hcode
  rw [content?, content?, happend, hcode, Option.map_some, Option.map_some,
    Text.trimEnd_append hblanks]

theorem content?_of_isMargin {margin : List Char} (h : IsMargin margin) :
    content? margin = some none := by
  have hnil : content? [] = some none := rfl
  rw [← hnil, ← List.nil_append margin]
  exact content?_append h rfl

/-- A blank closes no literal. -/
theorem withoutComment?_append_eq_none {line : List Char} {b : Char} (hb : Text.isBlank b = true)
    (h : withoutComment? line = none) : withoutComment? (line ++ [b]) = none := by
  obtain ⟨ts, u, hreads⟩ := withoutComment?_eq_none_iff.mp h
  have hplain : IsPlain (textOf ts) := isPlain_textOf fun t ht => hreads.isPlain ht nofun
  obtain ⟨d, rest, hopen, hclose⟩ := hreads.of_unclosed
  obtain ⟨q, hq, rfl, rfl | ⟨htripled, -⟩⟩ := opening?_cases hopen
  · have hne : q ∉ [b] := by
      rw [List.mem_singleton]
      rintro rfl
      exact absurd (not_isQuote_of_isBlank hb) (by simp [hq])
    rw [hreads.eq_append, List.append_assoc, hplain.withoutComment?_append, Ending.text,
      List.append_assoc, List.singleton_append, withoutComment?_of_isQuote hq,
      beforeComment_of_quote (ne_backslash_of_isQuote hq), close?_append_eq_none hne hclose]
    rfl
  · cases htripled

/-- A carriage return at the end of a line makes no difference. -/
theorem content?_append_return (line : List Char) : content? (line ++ ['\r']) = content? line := by
  cases hline : withoutComment? line with
  | none =>
    have hreturn := withoutComment?_append_eq_none (b := '\r') (by decide) hline
    rw [content?, content?, hreturn, hline]
  | some code => exact content?_append isMargin_return (by rw [content?, hline]; rfl)

/-! ## Contents -/

theorem contents?_append (raws raws' : List (List Char)) :
    contents? (raws ++ raws') =
      (contents? raws).bind fun found => (contents? raws').map (found ++ ·) := by
  induction raws with
  | nil =>
    rw [List.nil_append, contents?, Option.bind_some]
    exact Option.map_id'.symm
  | cons raw raws ih =>
    rw [List.cons_append, contents?, contents?, ih]
    cases content? raw with
    | none => rfl
    | some found =>
      cases contents? raws with
      | none => rfl
      | some more => simp [Function.comp_def]

/-- A line that adds the same may take the place of another. -/
theorem contents?_replace {raw raw' : List Char} (h : content? raw' = content? raw)
    (init tail : List (List Char)) :
    contents? (init ++ raw' :: tail) = contents? (init ++ raw :: tail) := by
  rw [contents?_append, contents?_append, contents?, contents?, h]

/-- A line that adds nothing may be left out. -/
theorem contents?_drop {raw : List Char} (h : content? raw = some none)
    (init tail : List (List Char)) :
    contents? (init ++ raw :: tail) = contents? (init ++ tail) := by
  rw [contents?_append, contents?_append, contents?, h]
  cases contents? tail <;> rfl

theorem contents?_congr {raws raws' : List (List Char)}
    (h : List.Forall₂ (fun raw raw' => content? raw' = content? raw) raws raws') :
    contents? raws' = contents? raws := by
  induction h with
  | nil => rfl
  | cons hraw _ ih => rw [contents?, contents?, hraw, ih]

/-- What a text adds to the outline does not depend on how its lines end. -/
theorem contents?_rawLines (text : List Char) :
    contents? (rawLines text) = contents? (Text.pieces '\n' text) := by
  refine (contents?_congr ((Text.forall₂_pieces_unifyLineEnds text).imp ?_)).symm
  rintro raw raw' (rfl | rfl)
  · rfl
  · exact content?_append_return raw

/-- What is determined by the contents: that all literals are closed, and how the lines nest. -/
theorem marks_of_contents? {raws : List (List Char)} {found : List (Nat × List Char)}
    (h : contents? raws = some found) :
    (∀ raw ∈ raws, (withoutComment? raw).isSome) ∧
      raws.filterMap mark? = found.map fun f => ⟨f.1, opensBlock f.2⟩ := by
  induction raws generalizing found with
  | nil =>
    cases h
    exact ⟨by simp, rfl⟩
  | cons raw raws ih =>
    obtain ⟨content, hcontent, hmore⟩ := Option.bind_eq_some_iff.mp h
    obtain ⟨more, hraws, rfl⟩ := Option.map_eq_some_iff.mp hmore
    obtain ⟨hclosed, hmarks⟩ := ih hraws
    obtain ⟨code, hcode, hsplit⟩ := Option.map_eq_some_iff.mp hcontent
    refine ⟨List.forall_mem_cons.mpr ⟨by rw [hcode]; rfl, hclosed⟩, ?_⟩
    rw [List.filterMap_cons, mark?, hcode, Option.bind_some, hmarks]
    subst hsplit
    generalize indentAndCode 0 (Text.trimEnd code) = split
    obtain ⟨width, body⟩ := split
    cases hbody : body.isEmpty <;> simp [hbody]

/-! ## Outlines -/

/-- A line of an outline wherever it stands. -/
def Line.unnumbered (l : Line) : Line := { l with number := 0 }

/-- A line is determined by its place and its content. -/
theorem map_unnumbered {lines : List Line} (h : ∀ l ∈ lines, l.weight = weight l.code) :
    lines.map Line.unnumbered =
      List.zipWith (fun p content => ⟨0, content.1, p.depth, weight content.2, content.2⟩)
        (lines.map Line.place) (lines.map fun l => (l.indent, l.code)) := by
  rw [List.zipWith_map, List.zipWith_self]
  refine List.map_congr_left fun l hl => ?_
  rw [Line.unnumbered, h l hl]
  rfl

/-- Texts with the same contents have the same outline but for the numbers of the lines. -/
theorem scan_of_contents? {text text' : List Char} {lines : List Line}
    (hlines : scan text = .ok lines)
    (h : contents? (rawLines text') = contents? (rawLines text)) :
    ∃ lines', scan text' = .ok lines' ∧ lines'.map Line.unnumbered = lines.map Line.unnumbered := by
  have hfound := contents?_of_scan hlines
  obtain ⟨hclosed, hmarks⟩ := marks_of_contents? hfound
  obtain ⟨hclosed', hmarks'⟩ := marks_of_contents? (h.trans hfound)
  have hsettle := settle_of_scan hclosed hlines
  rw [marks, hmarks, ← hmarks'] at hsettle
  obtain ⟨lines', hlines', hplaces⟩ := scan_of_settle hclosed' hsettle
  have hcontents :
      lines'.map (fun l => (l.indent, l.code)) = lines.map fun l => (l.indent, l.code) :=
    Option.some.inj ((contents?_of_scan hlines').symm.trans (h.trans hfound))
  refine ⟨lines', hlines', ?_⟩
  rw [map_unnumbered fun l hl => (content?_of_mem_scan hlines' hl).1,
    map_unnumbered fun l hl => (content?_of_mem_scan hlines hl).1, hplaces, hcontents]

end Outline

namespace Source

open Outline

/-! ## Edits -/

/-- The line ends. -/
def lineEnds : List (List Char) := [['\n'], ['\r', '\n']]

/-- A line starts after this text. -/
def AtStart (front : List Char) : Prop := front = [] ∨ ∃ before, front = before ++ ['\n']

/-- A line ends before this text. -/
def AtEnd (back : List Char) : Prop := back = [] ∨ ∃ e ∈ lineEnds, ∃ after, back = e ++ after

/-- The second text has one more line than the first, with nothing but blanks and a comment on
it. -/
inductive Inserted : List Char → List Char → Prop where
  /-- It stands between lines or before the first. -/
  | before {front l e back : List Char} (hfront : AtStart front) (hl : IsMargin l)
      (he : e ∈ lineEnds) : Inserted (front ++ back) (front ++ (l ++ (e ++ back)))
  /-- It follows the last line, which is ended for it. -/
  | last {text l e : List Char} (hl : IsMargin l) (he : e ∈ lineEnds) :
      Inserted text (text ++ (e ++ l))
  /-- It follows the last line, which has an end, and it has none itself. -/
  | rest {front l : List Char} (hfront : AtStart front) (hl : IsMargin l) :
      Inserted front (front ++ l)

/-- A carriage return and a line feed for a line feed alone. -/
def withReturn (c : Char) : List Char := if c = '\n' then ['\r', '\n'] else [c]

/-- One edit that concerns nothing but blanks, comments and line ends. -/
inductive Retouch : List Char → List Char → Prop where
  | insert {s t : List Char} (h : Inserted s t) : Retouch s t
  | remove {s t : List Char} (h : Inserted t s) : Retouch s t
  /-- Blanks, or a comment, or both, are added at the end of a line. -/
  | extend {front margin back : List Char} (hmargin : IsMargin margin) (hback : AtEnd back) :
      Retouch (front ++ back) (front ++ (margin ++ back))
  /-- All line ends are written in the other way. -/
  | ends {s : List Char} (h : '\r' ∉ s) : Retouch s (s.flatMap withReturn)

/-! ## One edit -/

/-- The lines before a place where a line starts stay what they are. -/
theorem AtStart.exists_pieces_append {front : List Char} (h : AtStart front) :
    ∃ init, ∀ s, Text.pieces '\n' (front ++ s) = init ++ Text.pieces '\n' s := by
  obtain rfl | ⟨before, rfl⟩ := h
  · exact ⟨[], fun s => rfl⟩
  · refine ⟨Text.pieces '\n' before, fun s => ?_⟩
    rw [List.append_assoc, List.singleton_append, Text.pieces_append_separator]

/-- What makes no difference to the last line of a text makes none after the text. -/
theorem contents?_pieces_extend {s t : List Char} (hfeed : '\n' ∉ t)
    (h : ∀ l ∈ Text.pieces '\n' s, content? (l ++ t) = content? l) (tail : List (List Char)) :
    contents? (Text.pieces '\n' (s ++ t) ++ tail) = contents? (Text.pieces '\n' s ++ tail) := by
  obtain ⟨init, last, hs, hlast⟩ := Text.exists_pieces_append_eq '\n' s
  have hcontent : content? (last ++ t) = content? last := h last (by simp [hs])
  rw [hlast t hfeed, hs, List.append_assoc, List.append_assoc]
  exact contents?_replace hcontent init tail

/-- The lines on both sides of a line end. -/
theorem contents?_pieces_append {e : List Char} (he : e ∈ lineEnds) (s t : List Char) :
    contents? (Text.pieces '\n' (s ++ (e ++ t))) =
      contents? (Text.pieces '\n' s ++ Text.pieces '\n' t) := by
  simp only [lineEnds, List.mem_cons, List.not_mem_nil, or_false] at he
  rcases he with rfl | rfl
  · rw [List.singleton_append, Text.pieces_append_separator]
  · have hsplit : s ++ (['\r', '\n'] ++ t) = s ++ ['\r'] ++ '\n' :: t := by simp
    rw [hsplit, Text.pieces_append_separator]
    exact contents?_pieces_extend (by decide) (fun l _ => content?_append_return l) _

/-- The lines after a place where a line ends stay what they are. -/
theorem AtEnd.exists_contents?_append {back : List Char} (h : AtEnd back) :
    ∃ tail, ∀ s, contents? (Text.pieces '\n' (s ++ back)) =
      contents? (Text.pieces '\n' s ++ tail) := by
  obtain rfl | ⟨e, he, after, rfl⟩ := h
  · exact ⟨[], fun s => by rw [List.append_nil, List.append_nil]⟩
  · exact ⟨Text.pieces '\n' after, fun s => contents?_pieces_append he s after⟩

theorem contents?_of_inserted {s t : List Char} (h : Inserted s t) :
    contents? (Text.pieces '\n' t) = contents? (Text.pieces '\n' s) := by
  cases h with
  | @before front l e back hfront hl he =>
    obtain ⟨init, hinit⟩ := hfront.exists_pieces_append
    rw [hinit, hinit, contents?_append, contents?_pieces_append he, Text.pieces_eq_singleton hl.1,
      ← contents?_append]
    exact contents?_drop (content?_of_isMargin hl) init _
  | @last _ l e hl he =>
    rw [contents?_pieces_append he, Text.pieces_eq_singleton hl.1,
      contents?_drop (content?_of_isMargin hl), List.append_nil]
  | @rest _ l hfront hl =>
    obtain ⟨init, hinit⟩ := hfront.exists_pieces_append
    have hs := hinit []
    rw [List.append_nil] at hs
    rw [hinit, hs, Text.pieces_eq_singleton hl.1]
    exact contents?_replace (content?_of_isMargin hl) init []

theorem unifyLineEnds_flatMap_withReturn {s : List Char} (h : '\r' ∉ s) :
    Text.unifyLineEnds (s.flatMap withReturn) = s := by
  induction s with
  | nil => rfl
  | cons c s ih =>
    rw [List.mem_cons, not_or] at h
    rw [List.flatMap_cons, withReturn]
    split
    · rename_i hc
      rw [hc, List.cons_append, List.singleton_append, Text.unifyLineEnds, ih h.2]
    · rw [List.singleton_append, Text.unifyLineEnds.eq_3 _ _ fun _ hc => absurd hc.symm h.1,
        ih h.2]

/-- An edit keeps what the lines add to the outline. -/
theorem contents?_of_retouch {s t : List Char} (h : Retouch s t)
    (hs : (contents? (rawLines s)).isSome) :
    contents? (rawLines t) = contents? (rawLines s) := by
  rw [contents?_rawLines] at hs
  rw [contents?_rawLines, contents?_rawLines]
  cases h with
  | insert h => exact contents?_of_inserted h
  | remove h => exact (contents?_of_inserted h).symm
  | @extend front margin back hmargin hback =>
    obtain ⟨tail, htail⟩ := hback.exists_contents?_append
    rw [← List.append_assoc, htail, htail]
    rw [htail] at hs
    -- Behind an open literal a comment would be none, and a quote in it could close the literal.
    obtain ⟨found, hfound⟩ := Option.isSome_iff_exists.mp hs
    refine contents?_pieces_extend hmargin.1 (fun l hl => content?_append hmargin ?_) tail
    rw [content?, Option.isSome_map]
    exact (marks_of_contents? hfound).1 l (List.mem_append_left _ hl)
  | ends h => rw [← contents?_rawLines, rawLines, unifyLineEnds_flatMap_withReturn h]

/-! ## Any number of edits -/

variable {text text' : List Char}

/-- Edits one after another keep what the lines add to the outline. -/
theorem contents?_of_retouches (h : Relation.ReflTransGen Retouch text text')
    (hs : (contents? (rawLines text)).isSome) :
    contents? (rawLines text') = contents? (rawLines text) := by
  induction h with
  | refl => rfl
  | tail _ hstep ih => rw [contents?_of_retouch hstep (by rw [ih]; exact hs), ih]

theorem scan_of_retouches (h : Relation.ReflTransGen Retouch text text') {lines : List Line}
    (hlines : Outline.scan text = .ok lines) :
    ∃ lines', Outline.scan text' = .ok lines' ∧
      lines'.map Line.unnumbered = lines.map Line.unnumbered := by
  have hsome : (contents? (rawLines text)).isSome := by
    rw [contents?_of_scan hlines]
    rfl
  exact scan_of_contents? hlines (contents?_of_retouches h hsome)

/-- The shapes of lines do not depend on their numbers. -/
theorem map_shape_of_unnumbered {lines lines' : List Line}
    (h : lines'.map Line.unnumbered = lines.map Line.unnumbered) :
    lines'.map Line.shape = lines.map Line.shape := by
  have hshapes := congrArg (List.map Line.shape) h
  rwa [List.map_map, List.map_map] at hshapes

/-- A text with a sound outline is accepted, or it is not in the language. -/
theorem scan_cases {lines : List Line} (h : Outline.scan text = .ok lines) :
    scan text = .ok lines ∨
      ∃ e finding, scan text = .error e ∧ Script.check (Text.unifyLineEnds text) = some finding ∧
        e.cause = .script finding.remark := by
  simp only [scan, h]
  cases hlast : lines.getLast? with
  | none =>
    rw [List.getLast?_eq_none_iff.mp hlast]
    exact .inl rfl
  | some last =>
    unfold checkScript
    -- Nothing below may look into the check: it is far too large to evaluate.
    generalize Script.check (Text.unifyLineEnds text) = checked
    cases checked with
    | none => exact .inl rfl
    | some finding => exact .inr ⟨_, finding, rfl, rfl, rfl⟩

/-- Lines without code may be put in and left out, blanks and comments may be added at the ends of
lines, and line ends may be written in the other way, any number of times and anywhere: the outline
stays sound and keeps its lines, which only get other numbers. The program stays the same if the
text is still in the language, and if there is no program any more then that is why. -/
theorem deltas_of_retouch (h : Relation.ReflTransGen Retouch text text') :
    (∀ lines, Outline.scan text = .ok lines → ∃ lines', Outline.scan text' = .ok lines' ∧
      lines'.map Line.unnumbered = lines.map Line.unnumbered) ∧
    ∀ ds, deltas text = .ok ds →
      (Script.check (Text.unifyLineEnds text') = none → deltas text' = .ok ds) ∧
      ∀ e, deltas text' = .error e → ∃ finding,
        Script.check (Text.unifyLineEnds text') = some finding ∧
          e.cause = .script finding.remark := by
  refine ⟨fun lines => scan_of_retouches h, fun ds hds => ?_⟩
  obtain ⟨lines, hlines, rfl⟩ := exists_lines_of_deltas hds
  obtain ⟨lines', hlines', hsame⟩ := scan_of_retouches h (scan_of_eq_ok hlines)
  rw [deltas, ← map_shape_of_unnumbered hsame]
  obtain hscan | ⟨e, finding, hscan, hcheck, hcause⟩ := scan_cases hlines'
  · rw [hscan]
    refine ⟨fun _ => rfl, fun e he => ?_⟩
    cases he
  · rw [hscan, hcheck]
    refine ⟨fun hnone => ?_, fun e' he => ?_⟩
    · cases hnone
    · cases he
      exact ⟨finding, rfl, hcause⟩

/-- A blank line is left out, a comment with a quote in it is put between a line and the block that
it opens, another comment is added to the line in that block, and then all line ends are changed. -/
theorem deltas_of_retouch_block :
    let text := "  \nif a:\n\tb = 1\nc".toList
    let text' := "if a:\r\n # it's\r\n\tb = 1 # \"\r\nc".toList
    Relation.ReflTransGen Retouch text text' ∧
      (∃ lines, Outline.scan text = .ok lines ∧ lines.map Line.number = [2, 3, 4]) ∧
      ∃ lines, Outline.scan text' = .ok lines ∧
        lines.map Line.shape = [⟨0, 1⟩, ⟨1, 2⟩, ⟨0, 0⟩] := by
  intro text text'
  have hremove : Retouch text "if a:\n\tb = 1\nc".toList :=
    .remove (@Inserted.before [] "  ".toList ['\n'] "if a:\n\tb = 1\nc".toList (.inl rfl)
      ⟨by decide, "  ".toList, [], by decide, List.all_eq_true.mp (by decide), nofun⟩ (by decide))
  have hinsert : Retouch "if a:\n\tb = 1\nc".toList "if a:\n # it's\n\tb = 1\nc".toList :=
    .insert (@Inserted.before "if a:\n".toList " # it's".toList ['\n'] "\tb = 1\nc".toList
      (.inr ⟨"if a:".toList, by decide⟩)
      ⟨by decide, [' '], "# it's".toList, by decide, List.all_eq_true.mp (by decide),
        fun c hc => (Option.some.inj hc).symm⟩ (by decide))
  have hextend : Retouch "if a:\n # it's\n\tb = 1\nc".toList
      "if a:\n # it's\n\tb = 1 # \"\nc".toList :=
    @Retouch.extend "if a:\n # it's\n\tb = 1".toList " # \"".toList "\nc".toList
      ⟨by decide, [' '], "# \"".toList, by decide, List.all_eq_true.mp (by decide),
        fun c hc => (Option.some.inj hc).symm⟩
      (.inr ⟨['\n'], by decide, ['c'], by decide⟩)
  have hends : Retouch "if a:\n # it's\n\tb = 1 # \"\nc".toList text' :=
    @Retouch.ends "if a:\n # it's\n\tb = 1 # \"\nc".toList (by decide)
  have hedits := ((Relation.ReflTransGen.single hremove).tail hinsert |>.tail hextend).tail hends
  have hscan : Outline.scan text = .ok [⟨2, 0, 0, 1, "if a:".toList⟩,
      ⟨3, 8, 1, 2, "b = 1".toList⟩, ⟨4, 0, 0, 0, "c".toList⟩] := by
    decide +kernel
  obtain ⟨lines, hlines, hsame⟩ := (deltas_of_retouch hedits).1 _ hscan
  exact ⟨hedits, ⟨_, hscan, rfl⟩, lines, hlines, map_shape_of_unnumbered hsame⟩

end Source

end Contour
