import AccessTransformer.Proofs.CommandLine.Run
import AccessTransformer.Proofs.Patches

/-!
# Applying patches

A command that applies patches looks at its inputs, clears the rejects and starts the tool.  How it
ends depends on the tool from then on: it succeeds exactly if the tool does its work and leaves no
rejects.

The rejects are cleared after the inputs were looked at, and nothing compares their paths.  So the
tool finds the inputs as they were exactly if clearing takes nothing that they need.

* `Apply.Starts`: whether the tool is started, and with which files.
* `Apply.perform_run_of_starts`: how a command ends that starts the tool.
* `Apply.perform_run_of_not_starts`: without that the tool makes no difference.
* `Apply.reports_own_rejects`: what it reports.
* `Apply.keeps_input_iff`: when it keeps its inputs.
-/

namespace AccessTransformer.CommandLine

variable {options : Apply} {files atStart after : FileSystem} {tool : Patches.Tool}
  {launcher : Launcher} {paths : List String}

/-! ## The tool -/

/-- What the tool is to apply. -/
def Apply.request (options : Apply) : Patches.ApplyRequest where
  base := options.base
  patches := options.patches
  output := options.output
  rejects := options.rejects

/-- Whether a command starts the tool, and with which files. -/
structure Apply.Starts (options : Apply) (files : FileSystem) (tool : Patches.Tool)
    (atStart : FileSystem) : Prop where
  base : files.Exists options.base
  patches : files.Exists options.patches
  command : Patches.Tool.ofCommand options.tool = .ok tool
  cleared : (Patches.clearRejects options.rejects).perform files = (atStart, .ok ())

/-- How a command ends when the tool has ended. -/
def Apply.outcome (options : Apply) (code : Option Int) (after : FileSystem) : Outcome Unit := do
  let paths ← Patches.outcome options.rejects code after
  if paths = [] then .ok () else Outcome.fail (.rejected options.rejects paths)

theorem perform_requireInput {path : String} (h : files.Exists path) :
    (requireInput path).perform files = (files, .ok ()) :=
  Prod.ext rfl (requireInput_eq_ok_iff.mpr h)

/-- A command whose inputs are there does what the tool does. -/
theorem Apply.perform_run_eq (hbase : files.Exists options.base)
    (hpatches : files.Exists options.patches)
    (hcommand : Patches.Tool.ofCommand options.tool = .ok tool) :
    (options.run launcher).perform files = (tool.apply launcher options.request >>= fun rejects =>
      Session.ofView fun _ => if rejects = [] then .ok ()
        else Outcome.fail (.rejected options.rejects rejects)).perform files := by
  have htool : (Session.ofView fun _ => Patches.Tool.ofCommand options.tool).perform files
      = (files, .ok tool) := congrArg (files, ·) hcommand
  rw [Apply.run, Session.perform_bind_of_ok (perform_requireInput hbase),
    Session.perform_bind_of_ok (perform_requireInput hpatches), Session.perform_bind_of_ok htool]
  rfl

/-- **A command that starts the tool leaves the files that the tool leaves.** -/
theorem Apply.perform_run_of_starts (h : options.Starts files tool atStart) :
    (options.run launcher).perform files =
      match tool.launch launcher options.request atStart with
      | none => (atStart, Outcome.during (.launch tool.program) (Outcome.fail .system))
      | some (after, code) => (after, options.outcome code after) := by
  rw [Apply.perform_run_eq h.base h.patches h.command, Session.perform_bind,
    Patches.Tool.perform_apply_of_clearRejects options.request h.cleared]
  cases tool.launch launcher options.request atStart with
  | none => rfl
  | some result =>
    obtain ⟨after, code⟩ := result
    have hrejects : options.request.rejects = options.rejects := rfl
    dsimp only
    rw [Apply.outcome, hrejects]
    cases Patches.outcome options.rejects code after <;> rfl

/-- A command that does not start the tool is the same for all tools. -/
theorem Apply.perform_run_of_not_starts (h : ∀ tool atStart, ¬options.Starts files tool atStart)
    (launcher launcher' : Launcher) :
    (options.run launcher).perform files = (options.run launcher').perform files := by
  have hmissing : ∀ {path : String}, ¬files.Exists path →
      (requireInput path).perform files = (files, Outcome.fail (.inputNotFound path)) :=
    fun hnone => Prod.ext rfl (if_neg hnone)
  by_cases hbase : files.Exists options.base
  · by_cases hpatches : files.Exists options.patches
    · cases hcommand : Patches.Tool.ofCommand options.tool with
      | error failure =>
        have htool : (Session.ofView fun _ => Patches.Tool.ofCommand options.tool).perform files
            = (files, .error failure) := congrArg (files, ·) hcommand
        simp only [Apply.run, Session.perform_bind_of_ok (perform_requireInput hbase),
          Session.perform_bind_of_ok (perform_requireInput hpatches),
          Session.perform_bind_of_error htool]
      | ok tool =>
        rw [Apply.perform_run_eq hbase hpatches hcommand,
          Apply.perform_run_eq hbase hpatches hcommand]
        rcases hclear : (Patches.clearRejects options.rejects).perform files with
          ⟨between, failure | _⟩
        · have happly : ∀ launcher, (tool.apply launcher options.request).perform files
              = (between, .error failure) := fun _ => Session.perform_bind_of_error hclear
          rw [Session.perform_bind_of_error (happly _), Session.perform_bind_of_error (happly _)]
        · exact absurd ⟨hbase, hpatches, hcommand, hclear⟩ (h tool between)
    · simp only [Apply.run, Session.perform_bind_of_ok (perform_requireInput hbase),
        Session.perform_bind_of_error (hmissing hpatches)]
  · simp only [Apply.run, Session.perform_bind_of_error (hmissing hbase)]

/-- A command fails unless the tool does its work. -/
theorem Apply.exists_failure_of_starts (h : options.Starts files tool atStart)
    (hexit : ∀ after exit, tool.launch launcher options.request atStart
      = some (after, some exit) → exit ≠ 0 ∧ exit ≠ 1) :
    ∃ failure, ((options.run launcher).perform files).2 = .error failure := by
  rw [Apply.perform_run_of_starts h]
  split
  · exact ⟨_, rfl⟩
  · rename_i after code hrun
    cases houtcome : options.outcome code after with
    | error failure => exact ⟨failure, rfl⟩
    | ok _ =>
      obtain ⟨_, hpaths, -⟩ := bind_eq_ok_iff.mp houtcome
      obtain ⟨_, hcheck, -⟩ := bind_eq_ok_iff.mp hpaths
      obtain ⟨exit, rfl, hdone⟩ := Patches.checkExit_eq_ok_iff.mp hcheck
      obtain ⟨hzero, hone⟩ := hexit _ _ hrun
      exact absurd hdone (not_or.mpr ⟨hzero, hone⟩)

/-! ## Rejects -/

/-- **A command lists the files that the tool leaves in the directory for rejects, each once and in
the order of their paths, and succeeds if there are none.  They are from this run of the tool if the
directory was there before or the path to it leads straight down.**  A command fails if the tool
cannot be started, is ended by a signal, or exits with a code that means failure. -/
theorem Apply.reports_own_rejects (hlauncher : launcher.KeepsTrees) (htree : files.IsTree)
    (hcommand : Patches.Tool.ofCommand options.tool = .ok tool) :
    (∀ after paths,
      (tool.apply launcher options.request).perform files = (after, .ok paths) →
        Patches.Lists after options.rejects paths ∧
        (∃ atStart exit,
          (Patches.clearRejects options.rejects).perform files = (atStart, .ok ()) ∧
          tool.launch launcher options.request atStart = some (after, some exit) ∧
          (exit = 0 ∨ exit = 1) ∧
          (files.Exists options.rejects ∨ ".." ∉ Path.segments options.rejects →
            ∀ path location, Patches.LiesIn after options.rejects path location →
              atStart.file? location = none)) ∧
        (files.Exists options.base → files.Exists options.patches →
          (((options.run launcher).perform files).2 = .ok () ↔ paths = []))) ∧
    ∀ atStart, options.Starts files tool atStart →
      (∀ after exit, tool.launch launcher options.request atStart = some (after, some exit) →
        exit ≠ 0 ∧ exit ≠ 1) →
      ∃ failure, ((options.run launcher).perform files).2 = .error failure := by
  refine ⟨fun after paths happly => ?_, fun atStart => Apply.exists_failure_of_starts⟩
  obtain ⟨atStart, exit, hclear, hrun, hexit, hlist⟩ :=
    Patches.Tool.perform_apply_eq_ok_iff.mp happly
  have hafter := (hlauncher _ _ _ _ _ hrun (Patches.isTree_of_clearRejects htree hclear)).1
  refine ⟨Patches.lists_of_rejectsIn hafter hlist, ⟨atStart, exit, hclear, hrun, hexit, ?_⟩, ?_⟩
  · exact fun hrejects path location hlies =>
      Patches.file?_eq_none_of_liesIn hlauncher htree hrejects hclear hrun hlies
  · intro hbase hpatches
    rw [Apply.perform_run_eq hbase hpatches hcommand, Session.perform_bind_of_ok happly,
      Session.perform_ofView]
    split_ifs with hnil
    · simp [hnil]
    · simp [hnil, Outcome.fail]

/-- Sources and patches, and the directory for rejects with one from before. -/
def withOldReject : FileSystem where
  nodes := [(["src"], .directory), (["A.java", "src"], .file (.bytes [])),
    (["patches"], .directory), (["rejects"], .directory),
    (["old.rej", "rejects"], .file (.bytes []))]

/-- The same files without the directory for rejects. -/
def withoutRejects : FileSystem where
  nodes := [(["src"], .directory), (["A.java", "src"], .file (.bytes [])),
    (["patches"], .directory)]

/-- The same files with the rejects of a run. -/
def withNewRejects : FileSystem where
  nodes := (["rejects"], .directory) :: (["a-b.rej", "rejects"], .file (.bytes [])) ::
    (["a", "rejects"], .directory) :: (["x.rej", "a", "rejects"], .file (.bytes [])) ::
    withoutRejects.nodes

/-- A tool that makes other files of some, and nothing of all others. -/
def turns (before after : FileSystem) (code : Int) : Launcher :=
  fun _ _ files => if files = before then some (after, some code) else none

theorem launch_turns (request : Patches.ApplyRequest) {before : FileSystem} {code : Int} :
    tool.launch (turns before after code) request before = some (after, some code) := if_pos rfl

theorem keepsTrees_turns {before : FileSystem} {code : Int} (htree : after.IsTree)
    (hworking : after.workingDirectory = before.workingDirectory) :
    (turns before after code).KeepsTrees := by
  intro _ _ files _ _ hrun _
  unfold turns at hrun
  split_ifs at hrun with hbefore
  obtain ⟨rfl, -⟩ := Prod.mk.inj (Option.some.inj hrun)
  exact ⟨htree, hbefore ▸ hworking⟩

/-- The command that applies the patches. -/
def applyPatches : Apply := ⟨["patch"], "src", "patches", "out.zip", "rejects"⟩

theorem starts_applyPatches : applyPatches.Starts withOldReject ⟨"patch", []⟩ withoutRejects :=
  ⟨by decide, by decide, rfl, rfl⟩

/-- The rejects are in the order of their names, not in that of their paths as texts. -/
theorem rejectsIn_withNewRejects :
    Patches.rejectsIn "rejects" withNewRejects = .ok ["rejects/a/x.rej", "rejects/a-b.rej"] := by
  have hentries : (withNewRejects.nodes.filter fun entry => FileSystem.IsInside ["rejects"] entry.1)
      = [(["a-b.rej", "rejects"], .file (.bytes [])), (["a", "rejects"], .directory),
        (["x.rej", "a", "rejects"], .file (.bytes []))] := by decide
  have hfirst : Text.namesLe ["a-b.rej"] ["a"] = false := by decide
  have hsecond : Text.namesLe ["a-b.rej"] ["a", "x.rej"] = false := by decide
  have hthird : Text.namesLe ["a"] ["a", "x.rej"] = true := by decide
  have hinside : withNewRejects.inside (withNewRejects.destination "rejects")
      = [(["a"], .directory), (["a", "x.rej"], .file (.bytes [])),
        (["a-b.rej"], .file (.bytes []))] := by
    rw [show withNewRejects.destination "rejects" = ["rejects"] by decide, FileSystem.inside,
      hentries]
    simp [List.mergeSort, List.MergeSort.Internal.splitInTwo, hfirst, hsecond, hthird]
  have hdirectory : withNewRejects.IsDirectory "rejects" := by decide
  rw [Patches.rejectsIn_of_isDirectory hdirectory, hinside]
  decide

theorem reports_own_rejects_new :
    Patches.Lists withNewRejects "rejects" ["rejects/a/x.rej", "rejects/a-b.rej"] ∧
      (∀ path location, Patches.LiesIn withNewRejects "rejects" path location →
        withoutRejects.file? location = none) ∧
      ((applyPatches.run (turns withoutRejects withNewRejects 1)).perform withOldReject).2
        ≠ .ok () := by
  have happly : (Patches.Tool.apply ⟨"patch", []⟩ (turns withoutRejects withNewRejects 1)
      applyPatches.request).perform withOldReject
      = (withNewRejects, .ok ["rejects/a/x.rej", "rejects/a-b.rej"]) :=
    Patches.Tool.perform_apply_eq_ok_iff.mpr ⟨withoutRejects, 1, starts_applyPatches.cleared,
      launch_turns _, .inr rfl, rejectsIn_withNewRejects⟩
  have hkeeps : (turns withoutRejects withNewRejects 1).KeepsTrees :=
    keepsTrees_turns (by decide) rfl
  obtain ⟨hlists, ⟨atStart, _, hclear, -, -, hnew⟩, hends⟩ :=
    (Apply.reports_own_rejects hkeeps (by decide) rfl).1 _ _ happly
  obtain ⟨rfl, -⟩ := Prod.mk.inj (starts_applyPatches.cleared.symm.trans hclear)
  refine ⟨hlists, hnew (.inl (by decide)), fun hok => ?_⟩
  cases (hends starts_applyPatches.base starts_applyPatches.patches).mp hok

/-- The same files, with a reject from before in another directory. -/
def withEarlierReject : FileSystem where
  nodes := (["q"], .directory) :: (["old.rej", "q"], .file (.bytes [])) :: withoutRejects.nodes

/-- The same files, with a directory that a tool has made. -/
def withDirectory : FileSystem where
  nodes := (["r"], .directory) :: withEarlierReject.nodes

/-- The path for rejects leads through a directory that only the tool makes.  So nothing is cleared
where it leads, and a reject from before is reported. -/
theorem apply_reports_earlier_reject :
    withEarlierReject.IsTree ∧ (turns withEarlierReject withDirectory 0).KeepsTrees ∧
      (Patches.Tool.apply ⟨"patch", []⟩ (turns withEarlierReject withDirectory 0)
        ⟨"src", "patches", "out.zip", "r/../q"⟩).perform withEarlierReject
        = (withDirectory, .ok ["r/../q/old.rej"]) ∧
      Patches.LiesIn withDirectory "r/../q" "r/../q/old.rej" ["old.rej", "q"] ∧
      withEarlierReject.file? ["old.rej", "q"] = some (.bytes []) := by
  have hdirectory : withDirectory.IsDirectory "r/../q" := by decide
  have hlist : Patches.rejectsIn "r/../q" withDirectory = .ok ["r/../q/old.rej"] := by
    have hentries : (withDirectory.nodes.filter fun entry => FileSystem.IsInside ["q"] entry.1)
        = [(["old.rej", "q"], .file (.bytes []))] := by decide
    have hinside : withDirectory.inside (withDirectory.destination "r/../q")
        = [(["old.rej"], .file (.bytes []))] := by
      rw [show withDirectory.destination "r/../q" = ["q"] by decide, FileSystem.inside, hentries]
      simp
    rw [Patches.rejectsIn_of_isDirectory hdirectory, hinside]
    decide
  refine ⟨by decide, keepsTrees_turns (by decide) rfl, ?_, ?_, by decide⟩
  · exact Patches.Tool.perform_apply_eq_ok_iff.mpr
      ⟨withEarlierReject, 0, rfl, launch_turns _, .inl rfl, hlist⟩
  · exact ⟨hdirectory, ["old.rej"], by decide, by decide, by decide⟩

/-! ## Inputs -/

/-- **When a command starts the tool, it has kept an input exactly if clearing the rejects takes
neither the input nor a directory on the way to it, and no file inside.** -/
theorem Apply.keeps_input_iff {input : String} (h : options.Starts files tool atStart)
    (hinput : input ∈ (Command.apply options).inputs) :
    files.Keeps atStart input ↔ files.Spares (files.Clears options.rejects) input := by
  have hexists : files.Exists input := by
    simp only [Command.inputs, List.mem_cons, List.not_mem_nil, or_false] at hinput
    obtain rfl | rfl := hinput
    · exact h.base
    · exact h.patches
  exact (Patches.loses_of_clearRejects h.cleared).keeps_iff hexists

theorem keeps_inputs_applyPatches :
    applyPatches.Starts withOldReject ⟨"patch", []⟩ withoutRejects ∧
      withOldReject.Keeps withoutRejects "src" ∧ withOldReject.Keeps withoutRejects "patches" := by
  have hsrc : withOldReject.Spares (withOldReject.Clears "rejects") "src" :=
    FileSystem.spares_of_apart (by decide) (by decide) (by decide)
  have hpatches : withOldReject.Spares (withOldReject.Clears "rejects") "patches" :=
    FileSystem.spares_of_apart (by decide) (by decide) (by decide)
  exact ⟨starts_applyPatches,
    (Apply.keeps_input_iff starts_applyPatches List.mem_cons_self).mpr hsrc,
    (Apply.keeps_input_iff starts_applyPatches (by decide)).mpr hpatches⟩

/-- What is left when the sources are cleared. -/
def withoutSources : FileSystem where
  nodes := [(["patches"], .directory), (["rejects"], .directory),
    (["old.rej", "rejects"], .file (.bytes []))]

/-- A command whose base is its directory for rejects as well. -/
def rejectsInBase : Apply := ⟨["patch"], "src", "patches", "out.zip", "src"⟩

/-- The sources were there when the command looked, and are gone when it starts the tool. -/
theorem apply_destroys_base :
    CommandLine.ofArguments ["atgen", "apply", "--tool", "patch", "--base", "src", "--patches",
        "patches", "--output", "out.zip", "--rejects", "src"]
        = .ok ⟨false, false, .apply rejectsInBase⟩ ∧
      rejectsInBase.Starts withOldReject ⟨"patch", []⟩ withoutSources ∧
      withOldReject.file? ["A.java", "src"] = some (.bytes []) ∧
      ¬withoutSources.Exists "src" ∧ withoutSources.file? ["A.java", "src"] = none :=
  ⟨by decide, ⟨by decide, by decide, rfl, rfl⟩, by decide, by decide, by decide⟩

end AccessTransformer.CommandLine
