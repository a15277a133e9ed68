import Contour.Command.Convert
import Contour.Proofs.Settings.Nearest

/-!
# The files that a command works with

The shelf and the log that a configuration names are found from the directory of the configuration.
The input and the output of executed programs are found from the working directory, as they are
where flags name them (`usedPaths_eq`). So two commands under one configuration work with the same
files exactly if each of the two paths that the configuration gives for input and output is empty,
is absolute, or climbs as far as the working directories differ (`usedPaths_eq_iff`).
-/

namespace Contour.Command

open Files
open Contour.Path (IsName ofNames)

/-- The absolute path of the file that a path names; the empty one names none. -/
def fileFrom (directory : Place) (path : String) : Option String :=
  if path = "" then none else some (Path.absolute (ofNames directory) path)

/-- The absolute paths of the files that a command works with. -/
structure UsedPaths where
  input : Option String
  output : Option String
  shelf : String
  log : Option String
deriving DecidableEq, Repr

/-- The files that settings and options name for a command in a working directory. -/
def usedPaths (working : Place) (s : Settings) (o : Options) : UsedPaths where
  input := fileFrom working o.programInput
  output := fileFrom working o.programOutput
  shelf := Path.absolute (ofNames working) s.shelfPath
  log := s.logPath?.map (Path.absolute (ofNames working))

/-! ## Files that are read and written -/

/-- The file that a path names stands in the place that it leads to. -/
theorem fileFrom_of_locate {t : Tree} {working q : Place} (hworking : ∀ n ∈ working, IsName n)
    {path : String} (h : t.locate working path = .ok q) :
    fileFrom working path = some (ofNames q) := by
  have hne : path ≠ "" := by
    rintro rfl
    cases h
  rw [fileFrom, if_neg hne, Tree.absolute_of_locate hworking h]

/-- One workspace comes from another by changing no file but the one that a path names. -/
structure ChangesOnly (path : String) (w w' : Workspace) : Prop where
  working : w'.working = w.working
  places : ∀ p, w'.tree.get? p ≠ w.tree.get? p → fileFrom w.working path = some (ofNames p)

namespace ChangesOnly

theorem refl (path : String) (w : Workspace) : ChangesOnly path w w :=
  ⟨rfl, fun _ h => absurd rfl h⟩

theorem trans {path : String} {w w' w'' : Workspace} (h : ChangesOnly path w w')
    (h' : ChangesOnly path w' w'') : ChangesOnly path w w'' := by
  refine ⟨h'.working.trans h.working, fun p hp => ?_⟩
  by_cases hfirst : w'.tree.get? p = w.tree.get? p
  · rw [← h.working]
    exact h'.places p (hfirst ▸ hp)
  · exact h.places p hfirst

end ChangesOnly

/-- An action changes no file but the one that a path names. -/
def KeepsTo {α : Type} (path : String) (x : StateM Workspace α) : Prop :=
  ∀ w : Workspace, (∀ n ∈ w.working, IsName n) → ChangesOnly path w (x.run w).2

namespace KeepsTo

variable {α β : Type} {path : String}

theorem of_unchanged {x : StateM Workspace α} (h : ∀ w, (x.run w).2 = w) : KeepsTo path x := by
  intro w _
  rw [h w]
  exact ChangesOnly.refl path w

theorem pure (a : α) : KeepsTo path (pure a : StateM Workspace α) :=
  of_unchanged fun _ => rfl

theorem bind {x : StateM Workspace α} {f : α → StateM Workspace β} (hx : KeepsTo path x)
    (hf : ∀ a, KeepsTo path (f a)) : KeepsTo path (x >>= f) := by
  intro w hworking
  have hfirst := hx w hworking
  have hrun : (x >>= f).run w = (f (x.run w).1).run (x.run w).2 := Workspace.run_bind_of_eq rfl
  rw [hrun]
  exact hfirst.trans (hf _ _ (hfirst.working ▸ hworking))

theorem write (path : String) (bytes : List UInt8) :
    KeepsTo path (Workspace.host.write path bytes) := by
  intro w hworking
  have hget : (get : StateM Workspace Workspace).run w = (w, w) := rfl
  show ChangesOnly path w ((Workspace.change fun t working => t.write working path bytes).run w).2
  rw [Workspace.change, Workspace.run_bind_of_eq hget]
  cases hwrite : w.tree.write w.working path bytes with
  | error failure => exact ChangesOnly.refl path w
  | ok t =>
    obtain ⟨q, hlocate, hothers⟩ := Tree.write_eq_ok hwrite
    refine ⟨rfl, fun p hp => ?_⟩
    have hpq : p = q := by
      by_contra hne
      exact hp (hothers p hne)
    rw [hpq]
    exact fileFrom_of_locate hworking hlocate

theorem executeInto (o : Options) (c : Console) (program : List Instruction) :
    KeepsTo o.programOutput (executeInto Workspace.host o c program) := by
  rw [Command.executeInto]
  refine bind (write _ _) fun result => ?_
  cases result with
  | error failure => exact pure _
  | ok =>
    have hrest (bytes : List UInt8) (report : Report) : KeepsTo o.programOutput
        (do let _ ← Workspace.host.write o.programOutput bytes; return report) :=
      bind (write _ _) fun _ => pure _
    simp only
    split
    · exact bind (pure _) fun loops => hrest _ _
    · exact bind (of_unchanged fun _ => rfl) fun loops => hrest _ _

/-- Executing a program changes no file but its output. -/
theorem execute (o : Options) (program : List Instruction) :
    KeepsTo o.programOutput (execute Workspace.host o program) := by
  rw [Command.execute]
  cases Format.ofName o.outputFormat with
  | error message => exact pure _
  | ok format =>
    simp only
    -- Whatever the input is, the rest of the command is the same.
    split
    all_goals
      refine bind (of_unchanged fun _ => rfl) fun input => ?_
      split
      · exact pure _
      · split
        · exact pure _
        · exact executeInto o _ program

end KeepsTo

/-- Execution with some options works with files: what it reads as its input is what the one file
holds, and it changes nothing but the other one. -/
structure Options.WorksWith (o : Options) (w : Workspace) (files : UsedPaths) : Prop where
  reads : ∀ bytes, ((Workspace.host.read o.programInput).run w).1 = .ok bytes →
    ∃ q, files.input = some (ofNames q) ∧
      (w.tree.get? q = some (.file bytes) ∨ w.tree.get? q = some .sink)
  writes : ∀ program q, ((execute Workspace.host o program).run w).2.tree.get? q ≠ w.tree.get? q →
    files.output = some (ofNames q)

/-- Execution works with the files that are seen from its working directory. -/
theorem Options.worksWith_usedPaths (o : Options) {w : Workspace}
    (hworking : ∀ n ∈ w.working, IsName n) (s : Settings) :
    o.WorksWith w (usedPaths w.working s o) := by
  refine ⟨fun bytes hread => ?_, fun program q hq => ?_⟩
  · obtain ⟨q, hlocate, hholds⟩ := Tree.read_eq_ok hread
    exact ⟨q, fileFrom_of_locate hworking hlocate, hholds⟩
  · exact (KeepsTo.execute o program w hworking).places q hq

/-! ## Working directories under one configuration -/

/-- A path in the settings is found from their directory. -/
theorem absolute_resolve {s : Settings} {d : Place} (hdirectory : s.directory = ofNames d)
    (working : Place) (path : String) :
    Path.absolute (ofNames working) (s.resolve path) = Path.absolute (ofNames d) path := by
  rw [Settings.resolve]
  by_cases hpath : Path.isAbsolute path = true
  · rw [if_pos hpath, Path.absolute, Path.absolute, if_pos hpath, if_pos hpath]
  · have hjoin : Path.join s.directory path = Path.absolute (ofNames d) path := by
      rw [Path.absolute, if_neg hpath, hdirectory]
    obtain ⟨ss, hss, habsolute⟩ :=
      Path.exists_absolute_eq_ofNames (Path.isAbsolute_ofNames d) path
    rw [if_neg hpath, hjoin, habsolute, Path.absolute_ofNames _ hss]

/-- Shelf and log are found from the directory of the settings, input and output from the working
directory. -/
theorem usedPaths_eq {s : Settings} {d : Place} (hdirectory : s.directory = ofNames d)
    (working : Place) (o : Options) :
    usedPaths working s o =
      { input := fileFrom working o.programInput
        output := fileFrom working o.programOutput
        shelf := Path.absolute (ofNames d) s.shelf
        log := fileFrom d s.logFile } := by
  have hlog : s.logPath?.map (Path.absolute (ofNames working)) = fileFrom d s.logFile := by
    rw [Settings.logPath?, fileFrom]
    split_ifs
    · rfl
    · rw [Option.map_some, absolute_resolve hdirectory]
  rw [usedPaths, hlog, Settings.shelfPath, absolute_resolve hdirectory]

theorem fileFrom_eq_fileFrom_iff {here here' : Place} (h : ∀ n ∈ here, IsName n)
    (h' : ∀ n ∈ here', IsName n) (path : String) :
    fileFrom here path = fileFrom here' path ↔
      path = "" ∨ Path.isAbsolute path = true ∨
        here.rdrop (Path.course path).climbs = here'.rdrop (Path.course path).climbs := by
  by_cases hpath : path = ""
  · simp [fileFrom, hpath]
  · rw [fileFrom, fileFrom, if_neg hpath, if_neg hpath, Option.some_inj,
      Path.absolute_eq_absolute_iff h h']
    simp [hpath]

/-- In two working directories from which one configuration is found, without flags for the paths,
the same settings count. Their shelf and their log are the same files, found from the directory of
the configuration. Their input and output are found from the working directory; all files are the
same exactly if each of these two paths is empty or absolute, or climbs so far that the two working
directories are the same from there up. -/
theorem usedPaths_eq_iff {w w' : Workspace} (htree : w'.tree = w.tree)
    (hworking : ∀ n ∈ w.working, IsName n) (hworking' : ∀ n ∈ w'.working, IsName n) {d : Place}
    (hd : w.tree.IsNearest w.working d) (hd' : w.tree.IsNearest w'.working d) {p : Parsed}
    (hconfig : p.last? ["config", "c"] = none) (hinput : p.last? ["program-input", "I"] = none)
    (houtput : p.last? ["program-output", "O"] = none) :
    ((Settings.forCommand Workspace.host ((p.last? ["config", "c"]).getD "")).run w').1 =
        ((Settings.forCommand Workspace.host ((p.last? ["config", "c"]).getD "")).run w).1 ∧
      ∀ s o,
        ((Settings.forCommand Workspace.host ((p.last? ["config", "c"]).getD "")).run w).1 = .ok s →
        o = (Options.ofSettings s).override p →
        (∀ x ∈ [w, w'], o.WorksWith x (usedPaths x.working s o) ∧
          usedPaths x.working s o =
            { input := fileFrom x.working s.programInput
              output := fileFrom x.working s.programOutput
              shelf := Path.absolute (ofNames d) s.shelf
              log := fileFrom d s.logFile }) ∧
        (usedPaths w.working s o = usedPaths w'.working s o ↔
          ∀ path ∈ [s.programInput, s.programOutput],
            path = "" ∨ Path.isAbsolute path = true ∨
              w.working.rdrop (Path.course path).climbs =
                w'.working.rdrop (Path.course path).climbs) := by
  have hnames : ∀ n ∈ d, IsName n := fun n hn => hworking n (hd.above.subset hn)
  have hload := Settings.forCommand_of_isNearest hworking hd
  have hload' := Settings.forCommand_of_isNearest hworking' (htree ▸ hd')
  rw [hconfig, Option.getD_none]
  refine ⟨?_, fun s o hs ho => ?_⟩
  -- The configuration is read by its absolute path, which is the same from everywhere.
  · rw [hload, hload', Settings.run_ofDirectory_ofNames w hnames,
      Settings.run_ofDirectory_ofNames w' hnames, htree]
  · have hdirectory := Settings.directory_of_ofDirectory hnames (hload ▸ hs)
    have hprogramInput : o.programInput = s.programInput := by
      rw [ho, Options.override, hinput]
      rfl
    have hprogramOutput : o.programOutput = s.programOutput := by
      rw [ho, Options.override, houtput]
      rfl
    have hpaths (x : Workspace) := usedPaths_eq hdirectory x.working o
    rw [hprogramInput, hprogramOutput] at hpaths
    refine ⟨fun x hx => ⟨o.worksWith_usedPaths ?_ s, hpaths x⟩, ?_⟩
    · rcases List.mem_pair.mp hx with rfl | rfl
      · exact hworking
      · exact hworking'
    · rw [hpaths w, hpaths w', UsedPaths.mk.injEq,
        fileFrom_eq_fileFrom_iff hworking hworking', fileFrom_eq_fileFrom_iff hworking hworking']
      simp

/-! A configuration that gives a relative path for the input, and a directory below it. -/

/-- The bytes of a configuration with the path `in.txt` for the input. -/
def inputConfiguration : List UInt8 := Utf8.encode "[run]\nprogram-input = \"in.txt\"\n".toList

/-- A workspace in a directory at or below the configuration. -/
def belowConfiguration (working : Place) : Workspace where
  tree := ⟨[(["p"], .directory), (["p", "sub"], .directory),
    (["p", Settings.configurationName], .file inputConfiguration)]⟩
  working

/-- The settings in the configuration. -/
def inputSettings : Settings := { Settings.default "/p" with programInput := "in.txt" }

theorem isNearest_belowConfiguration {start : Place} (hstart : ["p"] <+: start)
    (hall : ∀ e ∈ Path.starts start, (∀ n ∈ e, IsName n) ∧
      (Settings.isConfigured (belowConfiguration []) (ofNames e) = true → e.length ≤ 1)) :
    (belowConfiguration []).tree.IsNearest start ["p"] := by
  have hiff {e : Place} (he : e <+: start) :=
    Settings.isConfigured_ofNames_iff (belowConfiguration []) (hall e (Path.mem_starts.mpr he)).1
  refine ⟨hstart, (hiff hstart).mp (by decide +kernel), fun e he hconfigured => ?_⟩
  exact (hall e (Path.mem_starts.mpr he)).2 ((hiff he).mpr hconfigured)

theorem forCommand_belowConfiguration :
    ((Settings.forCommand Workspace.host "").run (belowConfiguration ["p"])).1 =
      .ok inputSettings := by
  have htoOption : ((Settings.forCommand Workspace.host "").run
      (belowConfiguration ["p"])).1.toOption = some inputSettings := by decide +kernel
  cases hload : ((Settings.forCommand Workspace.host "").run (belowConfiguration ["p"])).1 with
  | error message => simp [hload, Except.toOption] at htoOption
  | ok s =>
    rw [hload] at htoOption
    exact congrArg Except.ok (Option.some_inj.mp htoOption)

/-- The input is another file in the directory below. -/
theorem usedPaths_eq_iff_below :
    ((Settings.forCommand Workspace.host "").run (belowConfiguration ["p"])).1 =
        .ok inputSettings ∧
      ((Settings.forCommand Workspace.host "").run (belowConfiguration ["p", "sub"])).1 =
        .ok inputSettings ∧
      usedPaths ["p"] inputSettings ((Options.ofSettings inputSettings).override {}) ≠
        usedPaths ["p", "sub"] inputSettings ((Options.ofSettings inputSettings).override {}) := by
  have htree : (belowConfiguration ["p", "sub"]).tree = (belowConfiguration ["p"]).tree := rfl
  have hnearest : (belowConfiguration ["p"]).tree.IsNearest ["p"] ["p"] :=
    isNearest_belowConfiguration (by decide) (by decide +kernel)
  have hnearest' : (belowConfiguration ["p"]).tree.IsNearest ["p", "sub"] ["p"] :=
    isNearest_belowConfiguration (by decide) (by decide +kernel)
  obtain ⟨hsame, hpaths⟩ := usedPaths_eq_iff (p := {}) htree (by decide +kernel)
    (by decide +kernel) hnearest hnearest' rfl rfl rfl
  obtain ⟨-, hiff⟩ := hpaths _ _ forCommand_belowConfiguration rfl
  refine ⟨forCommand_belowConfiguration, hsame.trans forCommand_belowConfiguration, ?_⟩
  exact fun heq => absurd (hiff.mp heq "in.txt" (by decide)) (by decide +kernel)

end Contour.Command
