import Contour.Command.Line
import Contour.Proofs.Assembled
import Contour.Proofs.Command.Flags
import Contour.Proofs.DeltaFile.Basic
import Contour.Proofs.Machine.Budget
import Contour.Proofs.Settings
import Contour.Proofs.Shelf.Opening
import Contour.Proofs.Shelf.Rows

/-!
# Routes to execution

A program in an assembly file can be executed as it is, it can be assembled into a file that is
executed then, and it can be put on the shelf and executed from there. In a workspace without a
configuration these commands come down to a few actions on the tree: `run_input_format` and
`run_input_output` say so for the main command, `run_store`, `run_put` and `run_kept` for the one
for the shelf. What was assembled is read back as it was written, from the file (`run_assembled`)
and from the shelf (`run_stored`), and it runs in step with the program that it was assembled from,
so that all three ways show the same (`routes_agree`).
-/

namespace Contour.Command

open Files
open Contour.Path (ofNames)

/-! ## Executing -/

/-- The report on executing a program between the standard input and the standard output. -/
def reportOf (format : Format) (input : List UInt8) (program : List Instruction) : Report :=
  let (output, failure) := runOn Console.channel { format, input := Utf8.decode input } program
  { output, failure }

variable {w : Workspace}

theorem execute_eq {o : Options} {format : Format}
    (hformat : Format.ofName? o.outputFormat = some format) (hinput : o.programInput = "")
    (houtput : o.programOutput = "") (program : List Instruction) :
    (execute Workspace.host o program).run w = (reportOf format w.input program, w) := by
  have hname : Format.ofName o.outputFormat = .ok format := by rw [Format.ofName, hformat]
  rw [execute, hname, hinput, houtput]
  rfl

/-- Outcomes with the same status and the same text on the standard output. -/
structure Outcome.Agree (o o' : Outcome) : Prop where
  status : o.status = o'.status
  output : o.output = o'.output

/-- Executing programs that run alike gives the same output and the same status. -/
theorem agree_of_alike {p q : List Instruction} {format : Format} {input : List UInt8}
    {R : Instruction → Instruction → Prop}
    (h : (Machine.execute Console.channel p 0 { format, input := Utf8.decode input }).Alike R
      (Machine.execute Console.channel q 0 { format, input := Utf8.decode input })) :
    (Outcome.ofReport (reportOf format input p)).Agree (.ofReport (reportOf format input q)) := by
  simp only [reportOf, runOn, Outcome.ofReport]
  generalize Machine.execute Console.channel p 0 { format, input := Utf8.decode input } = r at h ⊢
  generalize Machine.execute Console.channel q 0 { format, input := Utf8.decode input } = r' at h ⊢
  obtain ⟨ending, steps, m⟩ := r
  obtain ⟨ending', steps', m'⟩ := r'
  obtain ⟨-, rfl, hending⟩ := h
  cases hending with
  | refl => exact ⟨rfl, rfl⟩
  | failed hfault => exact ⟨rfl, rfl⟩

/-! ## Loading -/

/-- The program of an assembly text. -/
theorem instructions_ofAssembly (name : String) (text : List Char) :
    (⟨name, Loaded.ofAssembly text⟩ : Loaded).instructions = Assembly.parse text := by
  rw [Loaded.ofAssembly, Assembly.parse]
  cases Text.lines text with
  | nil => simp [Loaded.instructions, Stream.decode, Stream.spans, Stream.spansFrom,
      Assembly.ofLines, Assembly.ofLinesFrom]
  | cons line lines => rfl

theorem instructions_deltas (name : String) (ds : List Delta) :
    (⟨name, .deltas ds⟩ : Loaded).instructions = Stream.decode ds := rfl

theorem deltas_ofAssembly (name : String) {text : List Char} {ds : List Delta}
    (h : Stream.assemble (Assembly.parse text) = .ok ds) :
    (⟨name, Loaded.ofAssembly text⟩ : Loaded).deltas = .ok ds := by
  rw [Assembly.parse] at h
  rw [Loaded.ofAssembly]
  cases hlines : Text.lines text with
  | nil =>
    rw [hlines] at h
    cases h
    rfl
  | cons line lines =>
    rw [hlines] at h
    simp only [Loaded.deltas, h]
    rfl

/-- Loading a file that is no delta file. -/
theorem load_text {path kind : String} {bytes : List UInt8} {content : Content}
    (h : w.tree.read w.working path = .ok bytes) (hkind : InputKind.ofName? kind ≠ some .deltas)
    (htext : Loaded.ofText path kind bytes = .ok content) :
    (Loaded.load Workspace.host path kind).run w = (.ok ⟨Loaded.nameOf path, content⟩, w) := by
  have hread : (Workspace.host.read path).run w = (.ok bytes, w) := by
    show (w.tree.read w.working path, w) = _
    rw [h]
  rw [Loaded.load, if_neg hkind, Workspace.run_bind_of_eq hread]
  simp only [htext]
  rfl

theorem load_assembly {path : String} {bytes : List UInt8}
    (h : w.tree.read w.working path = .ok bytes) :
    (Loaded.load Workspace.host path "a").run w =
      (.ok ⟨Loaded.nameOf path, Loaded.ofAssembly (Utf8.decode bytes)⟩, w) := by
  have hkind : InputKind.ofName? "a" = some .assembly := rfl
  refine load_text h (by simp [hkind]) ?_
  simp only [Loaded.ofText, hkind]

theorem load_source {path : String} {bytes : List UInt8} {ds : List Delta}
    (h : w.tree.read w.working path = .ok bytes)
    (hds : Source.deltas (Utf8.decode bytes) = .ok ds) :
    (Loaded.load Workspace.host path "p").run w = (.ok ⟨Loaded.nameOf path, .deltas ds⟩, w) := by
  have hkind : InputKind.ofName? "p" = some .source := rfl
  refine load_text h (by simp [hkind]) ?_
  simp only [Loaded.ofText, hkind, hds]

theorem load_deltas {path : String} {bytes : List UInt8} {ds : List Delta}
    (h : w.tree.read w.working path = .ok bytes) (hds : DeltaFile.decode path bytes = .ok ds) :
    (Loaded.load Workspace.host path "d").run w = (.ok ⟨Loaded.nameOf path, .deltas ds⟩, w) := by
  have hread : (Workspace.host.read path).run w = (.ok bytes, w) := by
    show (w.tree.read w.working path, w) = _
    rw [h]
  have hdeltas : (Loaded.readDeltas Workspace.host path).run w = (.ok ds, w) := by
    rw [Loaded.readDeltas, Workspace.run_bind_of_eq hread]
    simp only [hds]
    rfl
  have hkind : InputKind.ofName? "d" = some .deltas := rfl
  rw [Loaded.load, if_pos hkind, Workspace.run_bind_of_eq hdeltas]
  rfl

/-! ## The main command -/

/-- The options of a plain workspace. -/
def plainOptions : Options := ⟨"p", "e", "char", "", "", false⟩

theorem ofSettings_default (directory : String) :
    Options.ofSettings (Settings.default directory) = plainOptions := rfl

theorem startLog_default (directory : String) (v : Int64) :
    (startLog Workspace.host (Settings.default directory).logPath? v).run w = (.ok (), w) := rfl

/-- In a plain workspace the main command does what its flags ask for. -/
theorem convertWith_eq {p : Parsed} {kind : OutputKind} {input output : String} {r : Report}
    {w' : Workspace} (hw : w.IsPlain) (hconfig : p.last? ["config", "c"] = none)
    (hcheck : (plainOptions.override p).check = .ok kind)
    (hrun : (convert Workspace.host (plainOptions.override p) kind input output).run w = (r, w')) :
    (convertWith Workspace.host p input output).run w = (.ofReport r, w') := by
  rw [convertWith, hconfig, Option.getD_none,
    Workspace.run_bind_of_eq (Settings.forCommand_of_isPlain hw)]
  simp only [ofSettings_default]
  rw [Workspace.run_bind_of_eq (startLog_default _ _), hcheck]
  exact Workspace.run_bind_of_eq hrun

/-- Executing the program in a file. -/
theorem run_input_format (serve : StateM Workspace (Option String)) {kind F : String}
    {format : Format} {input : String} {p : Loaded} (hw : w.IsPlain)
    (hinput : shape input = .argument) (hformat : Format.ofName? F = some format)
    (hkind : (InputKind.ofName? kind).isSome = true)
    (hload : (Loaded.load Workspace.host input kind).run w = (.ok p, w)) :
    (run Workspace.host serve ["-i", kind, "-f", F, input]).run w =
      (.ofReport (reportOf format w.input p.instructions), w) := by
  have hoptions : plainOptions.override
      { settings := [("i", kind), ("f", F)], arguments := [input] } =
      ⟨kind, "e", F, "", "", false⟩ := rfl
  have hcheck : Options.check ⟨kind, "e", F, "", "", false⟩ = .ok .execution := by
    obtain ⟨k, hk⟩ := Option.isSome_iff_exists.mp hkind
    simp only [Options.check, InputKind.ofName, hk, hformat]
    rfl
  have hrun : run Workspace.host serve ["-i", kind, "-f", F, input] =
      runMain Workspace.host ["-i", kind, "-f", F, input] := rfl
  rw [hrun, runMain, parseFlags_input_format kind F hinput]
  refine convertWith_eq hw rfl hcheck ?_
  rw [hoptions, convert, Workspace.run_bind_of_eq hload]
  exact execute_eq hformat rfl rfl p.instructions

/-- Converting the program in a file, into another file or onto the standard output. -/
theorem run_kinds (serve : StateM Workspace (Option String)) (kind kind' : String) {input : String}
    (output : Option String) {k : OutputKind} {r : Report} {w' : Workspace} (hw : w.IsPlain)
    (hinput : shape input = .argument)
    (hcheck : Options.check ⟨kind, kind', "char", "", "", false⟩ = .ok k)
    (hrun : (convert Workspace.host ⟨kind, kind', "char", "", "", false⟩ k input
      (output.getD "")).run w = (r, w')) :
    (run Workspace.host serve ("-i" :: kind :: "-o" :: kind' :: input :: output.toList)).run w =
      (.ofReport r, w') := by
  have hmain : run Workspace.host serve
      ("-i" :: kind :: "-o" :: kind' :: input :: output.toList) =
      runMain Workspace.host ("-i" :: kind :: "-o" :: kind' :: input :: output.toList) := rfl
  rw [hmain, runMain, parseFlags_input_output kind kind' hinput]
  cases output with
  | none => exact convertWith_eq hw rfl hcheck hrun
  | some output => exact convertWith_eq hw rfl hcheck hrun

/-- Assembling the program in a file into another file. -/
theorem run_input_output (serve : StateM Workspace (Option String)) {input output : String}
    {p : Loaded} {ds : List Delta} {place : Place} (hw : w.IsPlain)
    (hinput : shape input = .argument)
    (hload : (Loaded.load Workspace.host input "a").run w = (.ok p, w)) (hds : p.deltas = .ok ds)
    (htarget : w.tree.target w.working output = .ok place)
    (hsink : w.tree.get? place ≠ some .sink) :
    (run Workspace.host serve ["-i", "a", "-o", "d", input, output]).run w =
      ({}, { w with tree := w.tree.put place (.file (DeltaFile.encode output ds)) }) := by
  have hwrite := Workspace.host_write htarget hsink (DeltaFile.encode output ds)
  refine run_kinds serve "a" "d" (some output) (k := .deltas) hw hinput rfl (r := {}) ?_
  rw [convert, Workspace.run_bind_of_eq hload]
  simp only [showDeltas, hds, Option.getD_some, if_neg (Tree.ne_empty_of_target htarget),
    Loaded.writeDeltas, bind_assoc]
  rw [Workspace.run_bind_of_eq hwrite]
  rfl

/-! ## The command for the shelf -/

/-- The directory of the shelf in a plain workspace. -/
def shelfFolder (w : Workspace) : Place := w.working ++ [".fython"]

/-- The name of the file of the shelf. -/
def shelfFile : String := "programs.db"

theorem shelfPath_default (hw : w.IsPlain) :
    (Settings.default (ofNames w.working)).shelfPath =
      ofNames (shelfFolder w ++ [shelfFile]) := by
  have hshelf : (Settings.default (ofNames w.working)).shelf = ".fython/programs.db" := by
    show Settings.defaultShelf = _
    decide +kernel
  have hnames : Path.names ".fython/programs.db".toList =
      [".fython", "programs.db"].map String.toList := by
    decide +kernel
  have hshelfNames : ∀ s ∈ [".fython", "programs.db"], Path.IsName s := by decide +kernel
  have hrelative : Path.isAbsolute ".fython/programs.db" = false := by decide +kernel
  have hdirectory : (Settings.default (ofNames w.working)).directory = ofNames w.working := rfl
  have hjoin := Path.join_ofNames (fun s hs => (hw.names s hs).1) hshelfNames hnames
  rw [Settings.shelfPath, hshelf, Settings.resolve, hrelative, hdirectory]
  simpa [shelfFolder, shelfFile] using hjoin

/-- A subcommand is carried out on the shelf after that was opened. -/
theorem run_store {rows : List Row} (serve : StateM Workspace (Option String)) (hw : w.IsPlain)
    (hready : Shelf.Ready w.tree (shelfFolder w) shelfFile rows) {name : String}
    (hname : shape name = .argument) (arguments : List String) :
    ∃ t, Shelf.Opened w.tree t (shelfFolder w) shelfFile rows ∧
      (run Workspace.host serve ("store" :: name :: arguments)).run w =
        (runSubcommand Workspace.host (ofNames (shelfFolder w ++ [shelfFile])) { rows }
          plainOptions name arguments).run { w with tree := t } := by
  obtain ⟨t, hopen, hopened⟩ := Shelf.openAt_eq_ok hready (by simp [shelfFolder])
  refine ⟨t, hopened, ?_⟩
  have hconfig : (({ arguments := name :: arguments } : Parsed).last? ["config", "c"]).getD "" =
      "" := rfl
  have hdb : (({ arguments := name :: arguments } : Parsed).last? ["db"]).getD "" = "" := rfl
  have hrun : run Workspace.host serve ("store" :: name :: arguments) =
      runKeep Workspace.host (name :: arguments) := rfl
  rw [hrun, runKeep, parseFlags_argument hname]
  simp only
  rw [keepWith, hconfig, Workspace.run_bind_of_eq (Settings.forCommand_of_isPlain hw)]
  simp only [hdb, if_true, shelfPath_default hw, ofSettings_default]
  rw [Workspace.run_bind_of_eq (startLog_default _ _)]
  exact Workspace.run_bind_of_eq hopen

/-- The program that comes on the shelf in a workspace. -/
def newProgram (w : Workspace) (name : String) (ds : List Delta) : Program :=
  ⟨name, Uuid.ofNat w.next, Shelf.hash ds, ds, w.clock⟩

/-- The rows of the shelf with that program. -/
def rowsWith (w : Workspace) (name : String) (ds : List Delta) (rows : List Row) : List Row :=
  Shelf.insertRow (Shelf.Program.row (newProgram w name ds)) rows

/-- Putting the program in an assembly file on the shelf. -/
theorem run_put {rows : List Row} {input name : String} {p : Loaded} {ds : List Delta}
    (hready : Shelf.Ready w.tree (shelfFolder w) shelfFile rows)
    (hfolder : w.tree.get? (shelfFolder w) = some .directory) (hname : shape name = .argument)
    (hne : name ≠ "") (hload : (Loaded.load Workspace.host input "a").run w = (.ok p, w))
    (hds : p.deltas = .ok ds) :
    ∃ (o : Outcome) (w' : Workspace), o.status = 0 ∧
      (runSubcommand Workspace.host (ofNames (shelfFolder w ++ [shelfFile])) { rows } plainOptions
          "put" ["-i", "a", name, input]).run w = (o, w') ∧
      w'.working = w.working ∧ w'.input = w.input ∧
      w'.tree = w.tree.put (shelfFolder w ++ [shelfFile])
        (.file (Shelf.toBytes (rowsWith w name ds rows))) := by
  have hput : ({ rows } : Shelf).put (Uuid.ofNat w.next) w.clock name ds =
      .ok (newProgram w name ds, { rows := rowsWith w name ds rows }) := by
    simp only [Shelf.put, if_neg hne]
    rfl
  have hid : Workspace.host.freshId.run w =
      (Uuid.ofNat w.next, { w with next := w.next + 1 }) := rfl
  have hnow : Workspace.host.now.run { w with next := w.next + 1 } =
      (w.clock, { w with next := w.next + 1 }) := rfl
  have hsave := Shelf.save_eq_ok (w := { w with next := w.next + 1 }) hready hfolder
    { rows := rowsWith w name ds rows }
  have hsub : runSubcommand Workspace.host (ofNames (shelfFolder w ++ [shelfFile])) { rows }
      plainOptions "put" ["-i", "a", name, input] =
      runPut Workspace.host (ofNames (shelfFolder w ++ [shelfFile])) { rows } plainOptions
        ["-i", "a", name, input] := rfl
  have hkind : ((({ settings := [("i", "a")], arguments := [name, input] } : Parsed).last?
      ["input-type", "i"]).getD plainOptions.inputType) = "a" := rfl
  rw [hsub, runPut, parseFlags_put plainOptions "a" input hname]
  simp only [hkind]
  rw [putProgram, Workspace.run_bind_of_eq hload]
  simp only [Except.bind, hds]
  rw [Workspace.run_bind_of_eq hid, Workspace.run_bind_of_eq hnow, hput]
  simp only [worded, Except.mapError]
  rw [Workspace.run_bind_of_eq hsave]
  refine ⟨{ output := _ }, _, rfl, rfl, rfl, rfl, rfl⟩

/-- Executing a program on the shelf. -/
theorem run_kept {rows : List Row} {name F : String} {format : Format} {p : Program}
    (hname : shape name = .argument) (hformat : Format.ofName? F = some format)
    (hget : ({ rows } : Shelf).get name = .ok p) (path : String) :
    (runSubcommand Workspace.host path { rows } plainOptions "run" ["-f", F, name]).run w =
      (.ofReport (reportOf format w.input (Stream.decode p.deltas)), w) := by
  have hsub : runSubcommand Workspace.host path { rows } plainOptions "run" ["-f", F, name] =
      runKept Workspace.host { rows } plainOptions ["-f", F, name] := rfl
  rw [hsub, runKept, parseFlags_run plainOptions F hname]
  simp only [worded, hget, Except.mapError]
  exact Workspace.run_bind_of_eq (execute_eq hformat rfl rfl _)

/-- A program that was put on the shelf is found there. -/
theorem get_newProgram {name : String} {ds : List Delta} (hsize : ds.length ≤ Cbor.maxElements)
    (rows : List Row) :
    ({ rows := rowsWith w name ds rows } : Shelf).get name = .ok (newProgram w name ds) := by
  have hname : (Shelf.Program.row (newProgram w name ds)).name = name := rfl
  have hid : (newProgram w name ds).id.IsValid := Uuid.isValid_ofNat w.next
  have hrow : Shelf.row? { rows := rowsWith w name ds rows } name =
      some (Shelf.Program.row (newProgram w name ds)) := by
    rw [Shelf.row?, rowsWith, Shelf.find?_insertRow, if_pos hname]
  simp only [Shelf.get, hrow, Shelf.program_row hid hsize]
  rfl

/-- No configuration comes into a workspace when its shelf is opened. -/
theorem isPlain_of_opened {rows rows' : List Row} (hw : w.IsPlain)
    (hready : Shelf.Ready w.tree (shelfFolder w) shelfFile rows) {w' : Workspace}
    (hworking : w'.working = w.working)
    (hopened : Shelf.Opened w.tree w'.tree (shelfFolder w) shelfFile rows') : w'.IsPlain := by
  have hother (d e : Place) {s : String} (hs : Settings.configurationName ≠ s) :
      d ++ [Settings.configurationName] ≠ e ++ [s] := fun heq =>
    hs (List.singleton_inj.mp (List.append_inj' heq rfl).2)
  refine hw.of_keeps hworking (hready.keeps_of_opened hopened) fun d _ => ?_
  exact hopened.other _ (hother _ _ (by decide +kernel)) (hother _ _ (by decide +kernel))

/-! ## Routes -/

/-- A path that a program can be assembled into: it leads to a place that keeps what is written to
it, and no configuration comes to be there. -/
structure IsOutput (w : Workspace) (path : String) (place : Place) : Prop where
  argument : shape path = .argument
  target : w.tree.target w.working path = .ok place
  keeps : w.tree.get? place ≠ some .sink
  unconfigured : ∀ d, d <+: w.working → place ≠ d ++ [Settings.configurationName]

theorem ne_append_configurationName {place : Place}
    (h : place.getLast? ≠ some Settings.configurationName) (d : Place) :
    place ≠ d ++ [Settings.configurationName] := by
  rintro rfl
  exact h (List.getLast?_concat ..)

/-- Writing there leaves the workspace without a configuration. -/
theorem IsOutput.isPlain_put {path : String} {place : Place} (h : IsOutput w path place)
    (hw : w.IsPlain) (bytes : List UInt8) :
    Workspace.IsPlain { w with tree := w.tree.put place (.file bytes) } := by
  have hdirectory := (Tree.target_eq_ok_iff.mp h.target).2.2
  refine hw.of_keeps rfl (Tree.keeps_put hdirectory (.file bytes)) fun d hd => ?_
  rw [Tree.get?_put _ (Tree.ne_nil_of_get?_ne hdirectory), if_neg (h.unconfigured d hd).symm]

/-- Assembling a program into a file and executing that file executes what was assembled. -/
theorem run_assembled (serve : StateM Workspace (Option String)) {input output F : String}
    {format : Format} {p : Loaded} {ds : List Delta} {place : Place} (hw : w.IsPlain)
    (hformat : Format.ofName? F = some format) (hinput : shape input = .argument)
    (hload : (Loaded.load Workspace.host input "a").run w = (.ok p, w)) (hds : p.deltas = .ok ds)
    (houtput : IsOutput w output place)
    (hsize : DeltaFile.isBinaryPath output = false ∨ ds.length ≤ Cbor.maxElements) :
    ∃ w', (run Workspace.host serve ["-i", "a", "-o", "d", input, output]).run w = ({}, w') ∧
      (run Workspace.host serve ["-i", "d", "-f", F, output]).run w' =
        (.ofReport (reportOf format w.input (Stream.decode ds)), w') := by
  refine ⟨_, run_input_output serve hw hinput hload hds houtput.target houtput.keeps, ?_⟩
  have hplain := houtput.isPlain_put hw (DeltaFile.encode output ds)
  have hread := (Tree.target_and_read_put houtput.target (DeltaFile.encode output ds)).2
  have hload' := load_deltas
    (w := { w with tree := w.tree.put place (.file (DeltaFile.encode output ds)) }) hread
    (DeltaFile.decode_encode_of_path hsize)
  rw [run_input_format serve hplain houtput.argument hformat rfl hload', instructions_deltas]

/-- Putting a program on the shelf and executing it there executes what was assembled. -/
theorem run_stored (serve : StateM Workspace (Option String)) {input name F : String}
    {format : Format} {bytes : List UInt8} {ds : List Delta} {rows : List Row} (hw : w.IsPlain)
    (hformat : Format.ofName? F = some format)
    (hread : w.tree.read w.working input = .ok bytes)
    (hds : Stream.assemble (Assembly.parse (Utf8.decode bytes)) = .ok ds) (hne : name ≠ "")
    (hname : shape name = .argument)
    (hready : Shelf.Ready w.tree (shelfFolder w) shelfFile rows)
    (hplace : w.tree.locate w.working input ≠ .ok (shelfFolder w ++ [shelfFile]))
    (hsize : ds.length ≤ Cbor.maxElements) :
    ∃ (o : Outcome) (w' w'' : Workspace), o.status = 0 ∧
      (run Workspace.host serve ["store", "put", "-i", "a", name, input]).run w = (o, w') ∧
      (run Workspace.host serve ["store", "run", "-f", F, name]).run w' =
        (.ofReport (reportOf format w.input (Stream.decode ds)), w'') := by
  have hput : shape "put" = .argument := by decide +kernel
  have hrun : shape "run" = .argument := by decide +kernel
  obtain ⟨t, hopened, hopen⟩ := run_store serve hw hready hput ["-i", "a", name, input]
  -- the program is still where it was after the shelf was opened
  have hread' : t.read w.working input = .ok bytes := by
    refine Tree.read_of_keeps (hready.keeps_of_opened hopened) hread fun q hq => ?_
    refine hopened.other q ?_ fun heq => hplace (heq ▸ hq)
    rintro rfl
    rw [Tree.read, hq] at hread
    rcases hready.folder with hfolder | hfolder <;> simp [hfolder] at hread
  obtain ⟨o, w', hstatus, hstored, hworking, hinput, htree⟩ := run_put (w := { w with tree := t })
    (hready.of_opened hopened) hopened.folder hname hne (load_assembly hread')
    (deltas_ofAssembly _ hds)
  have hsame : shelfFolder w' = shelfFolder w := by rw [shelfFolder, hworking, shelfFolder]
  -- the shelf after that
  have hopened' : Shelf.Opened w.tree w'.tree (shelfFolder w) shelfFile
      (rowsWith { w with tree := t } name ds rows) := by
    rw [htree]
    exact hopened.trans (Shelf.opened_put (w := { w with tree := t }) hopened.folder _)
  have hready' := hready.of_opened hopened'
  rw [← hsame] at hready'
  obtain ⟨t', -, hopen'⟩ := run_store serve (isPlain_of_opened hw hready hworking hopened')
    hready' hrun ["-f", F, name]
  refine ⟨o, w', { w' with tree := t' }, hstatus, hopen.trans hstored, ?_⟩
  rw [hopen', run_kept hname hformat (get_newProgram hsize rows), hinput]
  rfl

/-- Whether the program in an assembly file is executed as it is, assembled into a file and executed
from there, or put on the shelf and executed there, its outcomes agree. The last two ways execute
what is read back from the deltas, and this runs in step with the program for any number of
instructions, also where neither ends. -/
theorem routes_agree (w : Workspace) (serve : StateM Workspace (Option String)) {prog F : String}
    {format : Format} {bytes : List UInt8} (hw : w.IsPlain)
    (hformat : Format.ofName? F = some format) (hprog : shape prog = .argument)
    (hread : w.tree.read w.working prog = .ok bytes)
    (hknown : ∀ i ∈ Assembly.parse (Utf8.decode bytes), ∃ op : Opcode, op.name = i.mnemonic) :
    ∃ ds o o', Stream.assemble (Assembly.parse (Utf8.decode bytes)) = .ok ds ∧
      o = .ofReport (reportOf format w.input (Assembly.parse (Utf8.decode bytes))) ∧
      o' = .ofReport (reportOf format w.input (Stream.decode ds)) ∧
      (∀ n, (Machine.watch Console.channel (Assembly.parse (Utf8.decode bytes))
          { format, input := Utf8.decode w.input } n).Alike (fun i j => i.mnemonic = j.mnemonic)
        (Machine.watch Console.channel (Stream.decode ds)
          { format, input := Utf8.decode w.input } n)) ∧
      o.Agree o' ∧
      (run Workspace.host serve ["-i", "a", "-f", F, prog]).run w = (o, w) ∧
      (∀ out place, IsOutput w out place →
        DeltaFile.isBinaryPath out = false ∨ ds.length ≤ Cbor.maxElements →
        ∃ w', (run Workspace.host serve ["-i", "a", "-o", "d", prog, out]).run w = ({}, w') ∧
          (run Workspace.host serve ["-i", "d", "-f", F, out]).run w' = (o', w')) ∧
      ∀ name rows, name ≠ "" → name.toList.head? ≠ some '-' →
        Shelf.Ready w.tree (shelfFolder w) shelfFile rows →
        w.tree.locate w.working prog ≠ .ok (shelfFolder w ++ [shelfFile]) →
        ds.length ≤ Cbor.maxElements →
        ∃ (put : Outcome) (w' w'' : Workspace), put.status = 0 ∧
          (run Workspace.host serve ["store", "put", "-i", "a", name, prog]).run w = (put, w') ∧
          (run Workspace.host serve ["store", "run", "-f", F, name]).run w' = (o', w'') := by
  have hopcode : ∀ i ∈ Assembly.parse (Utf8.decode bytes), i.opcode?.isSome := by
    intro i hi
    obtain ⟨op, hop⟩ := hknown i hi
    rw [Instruction.opcode?, Opcode.ofName?_eq_some_iff.mpr hop]
    rfl
  obtain ⟨ds, hds, hsettles⟩ := Stream.forall₂_decode_assemble hopcode
  have hsame : List.Forall₂ (fun i j => Machine.SameEffect i j ∧ i.mnemonic = j.mnemonic)
      (Assembly.parse (Utf8.decode bytes)) (Stream.decode ds) :=
    hsettles.imp fun i j hij => ⟨hij.sameEffect, hij.mnemonic.symm⟩
  have hagree := agree_of_alike (Machine.execute_alike hsame Console.channel 0
    { format, input := Utf8.decode w.input })
  have hload := load_assembly hread
  have hexecute := run_input_format serve hw hprog hformat rfl hload
  rw [instructions_ofAssembly] at hexecute
  refine ⟨ds, _, _, hds, rfl, rfl, fun n => ?_, hagree, hexecute, ?_, ?_⟩
  · exact Machine.runFrom_alike hsame Console.channel 0 n 0 (Machine.start _)
  · intro out place hout hsize
    exact run_assembled serve hw hformat hprog hload (deltas_ofAssembly _ hds) hout hsize
  · intro name rows hne hdash hready hplace hsize
    exact run_stored serve hw hformat hread hds hne (shape_of_head hdash) hready hplace hsize

/-- A workspace with a program that echoes a character, and nothing else. -/
def echoing : Workspace where
  tree := ⟨[(["home"], .directory),
    (["home", "echo.fya"], .file (Utf8.encode "read\nprint\n".toList))]⟩
  working := ["home"]
  input := [65]

theorem isPlain_echoing : echoing.IsPlain := by
  have hstarts (d : Place) (hd : d <+: ["home"]) : d = [] ∨ d = ["home"] := by
    rcases List.prefix_cons_iff.mp hd with rfl | ⟨e, rfl, he⟩
    · exact .inl rfl
    · exact .inr (by rw [List.prefix_nil.mp he])
  refine ⟨by decide +kernel, fun d hd => ?_, fun d hd => ?_⟩
  · rcases hstarts d hd with rfl | rfl <;> decide +kernel
  · rcases hstarts d hd with rfl | rfl <;> decide +kernel

theorem ready_echoing : Shelf.Ready echoing.tree (shelfFolder echoing) shelfFile [] := by
  refine ⟨by decide +kernel, by decide +kernel, by decide +kernel, fun e he hne => ?_, .inl ?_,
    .inl ⟨?_, rfl⟩⟩
  · rcases List.prefix_concat_iff.mp he with rfl | he
    · exact absurd rfl hne
    · exact isPlain_echoing.directories e he
  · decide +kernel
  · decide +kernel

theorem isOutput_echoing : IsOutput echoing "echo.fyc" ["home", "echo.fyc"] :=
  ⟨by decide +kernel, by decide +kernel, by decide +kernel, fun d _ =>
    ne_append_configurationName (by decide +kernel) d⟩

/-- An echo, through a binary file and through a shelf that was not there. -/
theorem routes_agree_echoing :
    ∃ (o o' put : Outcome) (w₁ w₂ w₃ : Workspace), o.Agree o' ∧ put.status = 0 ∧
      (run Workspace.host (pure none) ["-i", "a", "-f", "char", "echo.fya"]).run echoing =
        (o, echoing) ∧
      (run Workspace.host (pure none) ["-i", "a", "-o", "d", "echo.fya", "echo.fyc"]).run echoing =
        ({}, w₁) ∧
      (run Workspace.host (pure none) ["-i", "d", "-f", "char", "echo.fyc"]).run w₁ = (o', w₁) ∧
      (run Workspace.host (pure none) ["store", "put", "-i", "a", "echo", "echo.fya"]).run echoing =
        (put, w₂) ∧
      (run Workspace.host (pure none) ["store", "run", "-f", "char", "echo"]).run w₂ =
        (o', w₃) := by
  have hread : echoing.tree.read echoing.working "echo.fya" =
      .ok (Utf8.encode "read\nprint\n".toList) := by decide +kernel
  have hparse : Assembly.parse (Utf8.decode (Utf8.encode "read\nprint\n".toList)) =
      [{ mnemonic := "read", line := 1 }, { mnemonic := "print", line := 2 }] := by decide +kernel
  have hassemble : (Stream.assemble [{ mnemonic := "read", line := 1 },
      { mnemonic := "print", line := 2 }]).map List.length = .ok 2 := by decide +kernel
  obtain ⟨ds, o, o', hds, -, -, -, hagree, hrun, hfile, hshelf⟩ := routes_agree echoing (pure none)
    (F := "char") isPlain_echoing rfl (by decide +kernel) hread
    (by rw [hparse]; simpa using ⟨⟨.read, rfl⟩, ⟨.print, rfl⟩⟩)
  have hsize : ds.length ≤ Cbor.maxElements := by
    rw [hparse] at hds
    rw [hds] at hassemble
    rw [Except.ok.inj hassemble]
    decide
  obtain ⟨w₁, hwritten, hfromFile⟩ := hfile "echo.fyc" _ isOutput_echoing (.inr hsize)
  obtain ⟨put, w₂, w₃, hput, hkept, hfromShelf⟩ := hshelf "echo" [] (by decide) (by decide +kernel)
    ready_echoing (by decide +kernel) hsize
  exact ⟨o, o', put, w₁, w₂, w₃, hagree, hput, hrun, hwritten, hfromFile, hkept, hfromShelf⟩

end Contour.Command
