import Contour.Proofs.Assembly.Parts
import Contour.Proofs.Command.Routes
import Contour.Proofs.Stream.Listing
import Contour.Proofs.Utf8

/-!
# Assembly written as assembly

When an assembly file is written as assembly, its instructions are written one on a line and nothing
else is. Instructions that were read keep their words in this form (`forall₂_sameWords_render`), so
that it is a normal form: it is written as itself (`render_parse_render`).

This holds of files with instructions. A file without lines is taken for the empty stream of deltas
and written as a listing, which is not the empty text. A file with lines and without instructions is
written as the empty text, and this as a listing. `normalized_iff` is the whole statement, for the
command.
-/

namespace Contour.Assembly

/-! ## Instructions one on a line -/

theorem toList_render (is : List Instruction) :
    (render is).toList = (is.map fun i => i.text.toList).flatMap (· ++ ['\n']) := by
  rw [render, String.toList_join, List.flatMap_map, List.flatMap_map]
  exact List.flatMap_congr fun i _ => by simp

variable {is : List Instruction} (h : ∀ i ∈ is, IsSpelled i)

include h

/-- Instructions keep their words when they are written. -/
theorem forall₂_sameWords_render : List.Forall₂ Stream.SameWords is (parse (render is).toList) := by
  have hplain : ∀ l ∈ is.map fun i => i.text.toList, ∀ c ∈ l, 32 ≤ c.toNat := by
    intro l hl c hc
    obtain ⟨i, hi, rfl⟩ := List.mem_map.mp hl
    have := toNat_of_mem_text (h i hi) hc
    omega
  rw [parse_eq_ofLines_pieces, toList_render, Text.pieces_unifyLineEnds_flatMap hplain, ofLines,
    ofLinesFrom_concat_nil]
  exact Stream.forall₂_sameWords_ofLinesFrom (fun i hi => ofLine?_text (h i hi)) 1

/-- What is written is read and written as it is. -/
theorem render_parse_render : render (parse (render is).toList) = render is := by
  have htext := Stream.map_text_congr (forall₂_sameWords_render h)
  have hrender (js : List Instruction) :
      render js = String.join ((js.map Instruction.text).map (· ++ "\n")) := by
    rw [render, List.map_map]
    rfl
  rw [hrender, ← htext, ← hrender]

/-- What is written starts with a letter, unless it is nothing. -/
theorem head?_render (hne : is ≠ []) :
    ∃ c ∈ (render is).toList.head?, isMnemonicChar c = true := by
  obtain ⟨i, rest, rfl⟩ := List.exists_cons_of_ne_nil hne
  obtain ⟨hletter, hletters⟩ := h i List.mem_cons_self
  obtain ⟨c, s, hmnemonic⟩ := List.exists_cons_of_ne_nil hletter
  refine ⟨c, ?_, hletters c (hmnemonic ▸ List.mem_cons_self)⟩
  rw [toList_render, List.map_cons, List.flatMap_cons, toList_text, hmnemonic]
  simp

end Contour.Assembly

namespace Contour.Command

open Files
open Assembly (parse render)

/-! ## Assembly texts -/

/-- What an assembly text under a name is written as. -/
def rewritten (name : String) (text : List Char) : String :=
  (⟨name, Loaded.ofAssembly text⟩ : Loaded).assembly

theorem rewritten_of_lines {text : List Char} (h : Text.lines text ≠ []) (name : String) :
    rewritten name text = render (parse text) := by
  obtain ⟨line, lines, hlines⟩ := List.exists_cons_of_ne_nil h
  rw [rewritten, Loaded.ofAssembly, parse, hlines]
  rfl

theorem rewritten_of_no_lines {text : List Char} (h : Text.lines text = []) (name : String) :
    rewritten name text = Stream.listing name [] := by
  rw [rewritten, Loaded.ofAssembly, h]
  rfl

/-- It is the instructions, if there are lines. -/
theorem rewritten_eq_render_iff {name : String} {text : List Char} :
    rewritten name text = render (parse text) ↔ Text.lines text ≠ [] := by
  refine ⟨fun h hlines => ?_, fun h => rewritten_of_lines h name⟩
  have hhead := Stream.head?_listing name []
  rw [← rewritten_of_no_lines hlines, h, parse, hlines] at hhead
  exact absurd hhead (by decide)

/-- It stays as it is exactly if there are instructions. -/
theorem rewritten_rewritten_iff {name name' : String} {text : List Char} :
    rewritten name' (rewritten name text).toList = rewritten name text ↔ parse text ≠ [] := by
  have hspelled (s : List Char) : ∀ i ∈ parse s, Assembly.IsSpelled i :=
    fun i => Assembly.isSpelled_of_mem_ofLinesFrom
  refine ⟨fun h hparse => ?_, fun hparse => ?_⟩
  · by_cases hlines : Text.lines text = []
    · -- What is written starts with a comment, and no instruction does.
      have hhead := Stream.head?_listing name []
      rw [rewritten_of_no_lines hlines,
        rewritten_of_lines (Text.lines_ne_nil_of_head? hhead (by decide))] at h
      by_cases hnone : parse (Stream.listing name []).toList = []
      · rw [← h, hnone] at hhead
        exact absurd hhead (by decide)
      · obtain ⟨c, hc, hletter⟩ := Assembly.head?_render (hspelled _) hnone
        rw [h, hhead] at hc
        cases hc
        exact absurd hletter (by decide)
    · -- Nothing is written, and for that a listing.
      have hempty : rewritten name text = "" := by
        rw [rewritten_of_lines hlines, hparse]
        rfl
      have hlisting : rewritten name' [] = Stream.listing name' [] :=
        rewritten_of_no_lines rfl name'
      have hhead := Stream.head?_listing name' []
      rw [hempty] at h
      rw [← hlisting, show rewritten name' [] = "" from h] at hhead
      exact absurd hhead (by decide)
  · have hlines : Text.lines text ≠ [] := fun hlines => hparse (by rw [parse, hlines]; rfl)
    have hagain : Text.lines (render (parse text)).toList ≠ [] := by
      obtain ⟨c, hc, hletter⟩ := Assembly.head?_render (hspelled text) hparse
      refine Text.lines_ne_nil_of_head? hc ⟨?_, ?_⟩ <;> rintro rfl <;>
        exact absurd hletter (by decide)
    rw [rewritten_of_lines hlines, rewritten_of_lines hagain,
      Assembly.render_parse_render (hspelled text)]

/-! ## The command -/

variable {w : Workspace}

theorem run_show_assembly (serve : StateM Workspace (Option String)) {input : String} {p : Loaded}
    (hw : w.IsPlain) (hinput : shape input = .argument)
    (hload : (Loaded.load Workspace.host input "a").run w = (.ok p, w)) :
    (run Workspace.host serve ["-i", "a", "-o", "a", input]).run w =
      ({ output := p.assembly }, w) := by
  refine run_kinds serve "a" "a" none (k := .assembly) hw hinput rfl (r := { output := p.assembly })
    ?_
  rw [convert, Workspace.run_bind_of_eq hload]
  rfl

theorem run_write_assembly (serve : StateM Workspace (Option String)) {input output : String}
    {p : Loaded} {place : Place} (hw : w.IsPlain) (hinput : shape input = .argument)
    (hload : (Loaded.load Workspace.host input "a").run w = (.ok p, w))
    (houtput : IsOutput w output place) :
    (run Workspace.host serve ["-i", "a", "-o", "a", input, output]).run w =
      ({}, { w with tree := w.tree.put place (.file (Utf8.encode p.assembly.toList)) }) := by
  have hwrite := Workspace.host_write houtput.target houtput.keeps (Utf8.encode p.assembly.toList)
  refine run_kinds serve "a" "a" (some output) (k := .assembly) hw hinput rfl (r := {}) ?_
  rw [convert, Workspace.run_bind_of_eq hload]
  simp only [showAssembly, Option.getD_some, if_neg (Tree.ne_empty_of_target houtput.target)]
  rw [Workspace.run_bind_of_eq hwrite]
  rfl

/-- Writing an assembly file as assembly, once onto the standard output, and once into a file and
from there onto the standard output. What comes out first is the instructions of the file one on a
line, exactly if the file has a line; a file without one comes out as a listing. What comes out of
the second pass is the same, exactly if the file has an instruction. -/
theorem normalized_iff (w : Workspace) (serve : StateM Workspace (Option String)) {prog : String}
    {bytes : List UInt8} (hw : w.IsPlain) (hprog : shape prog = .argument)
    (hread : w.tree.read w.working prog = .ok bytes) :
    ∃ once : String,
      (run Workspace.host serve ["-i", "a", "-o", "a", prog]).run w = ({ output := once }, w) ∧
      (once = render (parse (Utf8.decode bytes)) ↔
        Utf8.decode bytes ∉ [[], ['\n'], ['\r', '\n']]) ∧
      (Utf8.decode bytes ∈ [[], ['\n'], ['\r', '\n']] →
        once = Stream.listing (Loaded.nameOf prog) []) ∧
      ∀ out place, IsOutput w out place → ∃ (w' : Workspace) (twice : String),
        (run Workspace.host serve ["-i", "a", "-o", "a", prog, out]).run w = ({}, w') ∧
        w'.tree.read w'.working out = .ok (Utf8.encode once.toList) ∧
        (run Workspace.host serve ["-i", "a", "-o", "a", out]).run w' = ({ output := twice }, w') ∧
        (twice = once ↔ parse (Utf8.decode bytes) ≠ []) := by
  have hload := load_assembly hread
  refine ⟨rewritten (Loaded.nameOf prog) (Utf8.decode bytes),
    run_show_assembly serve hw hprog hload,
    rewritten_eq_render_iff.trans Text.lines_eq_nil_iff.not,
    fun h => rewritten_of_no_lines (Text.lines_eq_nil_iff.mpr h) _, fun out place hout => ?_⟩
  generalize hbytes :
    Utf8.encode (rewritten (Loaded.nameOf prog) (Utf8.decode bytes)).toList = bytes'
  have hread' := (Tree.target_and_read_put hout.target bytes').2
  have hagain := run_show_assembly serve (hout.isPlain_put hw bytes') hout.argument
    (load_assembly (w := { w with tree := w.tree.put place (.file bytes') }) hread')
  refine ⟨{ w with tree := w.tree.put place (.file bytes') }, _, ?_, hread', hagain, ?_⟩
  · rw [← hbytes]
    exact run_write_assembly serve hw hprog hload hout
  · rw [← hbytes, Utf8.decode_encode]
    exact rewritten_rewritten_iff

/-- A workspace in which there is also a file with a comment and nothing else. -/
def remarked : Workspace :=
  { echoing with
    tree := echoing.tree.put ["home", "remark.fya"] (.file (Utf8.encode "; nothing\n".toList)) }

/-- The comment comes out as nothing, and nothing as a listing. -/
theorem normalized_iff_remarked :
    (remarked.IsPlain ∧ shape "remark.fya" = .argument ∧
      remarked.tree.read remarked.working "remark.fya" =
        .ok (Utf8.encode "; nothing\n".toList) ∧
      IsOutput remarked "none.fya" ["home", "none.fya"]) ∧
    (run Workspace.host (pure none) ["-i", "a", "-o", "a", "remark.fya"]).run remarked =
      ({ output := "" }, remarked) ∧
    ∃ (w' : Workspace) (twice : String), twice ≠ "" ∧
      (run Workspace.host (pure none) ["-i", "a", "-o", "a", "remark.fya", "none.fya"]).run
        remarked = ({}, w') ∧
      (run Workspace.host (pure none) ["-i", "a", "-o", "a", "none.fya"]).run w' =
        ({ output := twice }, w') := by
  have hplace : IsOutput echoing "remark.fya" ["home", "remark.fya"] :=
    ⟨by decide +kernel, by decide +kernel, by decide +kernel, fun d _ =>
      ne_append_configurationName (by decide +kernel) d⟩
  have hplain : remarked.IsPlain := hplace.isPlain_put isPlain_echoing _
  have hread := (Tree.target_and_read_put hplace.target (Utf8.encode "; nothing\n".toList)).2
  have hout : IsOutput remarked "none.fya" ["home", "none.fya"] :=
    ⟨by decide +kernel, by decide +kernel, by decide +kernel, fun d _ =>
      ne_append_configurationName (by decide +kernel) d⟩
  have hparse : parse (Utf8.decode (Utf8.encode "; nothing\n".toList)) = [] := by
    rw [Utf8.decode_encode]
    decide +kernel
  have hlines : Utf8.decode (Utf8.encode "; nothing\n".toList) ∉ [[], ['\n'], ['\r', '\n']] := by
    rw [Utf8.decode_encode]
    decide
  obtain ⟨once, hshown, honce, -, hpasses⟩ :=
    normalized_iff remarked (pure none) hplain hplace.argument hread
  obtain ⟨w', twice, hwritten, -, hagain, hsame⟩ := hpasses _ _ hout
  obtain rfl : once = "" := by
    rw [honce.mpr hlines, hparse]
    rfl
  exact ⟨⟨hplain, hplace.argument, hread, hout⟩, hshown, w', twice,
    fun h => hsame.mp h hparse, hwritten, hagain⟩

end Contour.Command
