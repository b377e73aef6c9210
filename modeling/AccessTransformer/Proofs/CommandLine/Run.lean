import AccessTransformer.CommandLine.Run
import AccessTransformer.Proofs.Files.Session
import AccessTransformer.Proofs.Outcomes
import AccessTransformer.Proofs.Rules.Spelling
import AccessTransformer.Proofs.Rules.Undeclared

/-!
# Runs are all or nothing

Generating a listing and listing callers read some files, work out a text, and save it.  Everything
that can go wrong before that leaves the files alone, and saving takes care of itself, so a run that
fails has changed no file.  A run that succeeds has changed at most the one under the output path,
and that one holds the text that the input files give.

Unless that file is one of the inputs, the next run finds the inputs as they were.  It works out the
same text and saves what is there already.

* `Renders`: the text that a command is to save, as the files give it.
* `Command.perform_run_eq_ok_iff`: when a run succeeds.
* `Command.run_all_or_nothing`: the files after a run, and after another one.
-/

namespace AccessTransformer.CommandLine

variable {files after : FileSystem} {path text : String}

/-! ## Inputs -/

theorem looks_requireInput (path : String) : (requireInput path).Looks :=
  Session.looks_ofView _

theorem looks_readText (path : String) : (readText path).Looks :=
  (Session.looks_ofView _).during _

theorem looks_readArchive (path : String) : (readArchive path).Looks :=
  (Session.looks_ofView _).during _

theorem looks_loadRules (path : String) : (loadRules path).Looks :=
  (looks_readText path).bind fun _ =>
    (Session.looks_ofView _).bind fun _ => Session.looks_ofView _

theorem requireInput_eq_ok_iff {result : Unit} :
    ((requireInput path).perform files).2 = .ok result ↔ files.Exists path := by
  show (if files.Exists path then _ else _) = _ ↔ _
  split_ifs with h
  · simp [h]
  · simp [h, Outcome.fail]

theorem readText_eq_ok_iff :
    ((readText path).perform files).2 = .ok text ↔
      (files.read? path).bind Content.text? = some text := by
  refine Outcome.during_eq_ok_iff.trans ?_
  simp only [Session.ofView]
  cases (files.read? path).bind Content.text? with
  | none => simp [Outcome.fail]
  | some text => simp

theorem readArchive_eq_ok_iff {archive : Archive} :
    ((readArchive path).perform files).2 = .ok archive ↔
      files.read? path = some (.archive archive) := by
  refine Outcome.during_eq_ok_iff.trans ?_
  simp only [Session.ofView]
  split
  · rename_i heq
    simp [heq]
  · rename_i hne
    simpa [Outcome.fail] using hne archive

theorem loadRules_eq_ok_iff {groups : List Rules.Group} :
    ((loadRules path).perform files).2 = .ok groups ↔ ∃ text,
      (files.read? path).bind Content.text? = some text ∧ ∃ file,
        Rules.RulesFile.ofText text = .ok file ∧ file.resolve = .ok groups := by
  rw [loadRules, (looks_readText path).bind_eq_ok_iff]
  refine exists_congr fun text => and_congr readText_eq_ok_iff ?_
  rw [(Session.looks_ofView _).bind_eq_ok_iff]
  refine exists_congr fun file => and_congr ?_ ?_
  · exact Outcome.during_eq_ok_iff.trans Outcome.lift_eq_ok_iff
  · exact Outcome.during_eq_ok_iff.trans Outcome.lift_eq_ok_iff

/-- What is read is there. -/
theorem exists_of_read?_eq_some {content : Content} (h : files.read? path = some content) :
    files.Exists path := by
  intro hnone
  rw [FileSystem.read?, hnone] at h
  cases h

/-! ## Texts -/

/-- Where a command puts the text that it works out. -/
def Command.output? : Command → Option String
  | .generate options => some options.output
  | .callTargets options => some options.output
  | .diff _ | .apply _ => none

/-- What a command is given to work on. -/
def Command.inputs : Command → List String
  | .generate options => [options.input, options.rules]
  | .callTargets options => [options.input]
  | .diff options => [options.base, options.modified]
  | .apply options => [options.base, options.patches]

/-- The text that a command is to save, and what it reports then, as the files give it. -/
inductive Renders (files : FileSystem) : Command → String → Option Summary → Prop
  /-- The listing, if the rules are read and resolved and each of their groups selects something. -/
  | generate {options : Generate} {text : String} {file : Rules.RulesFile}
      {groups : List Rules.Group} {archive : Archive} {generation : Rules.Generation}
      (rules : (files.read? options.rules).bind Content.text? = some text)
      (parsed : Rules.RulesFile.ofText text = .ok file) (resolved : file.resolve = .ok groups)
      (input : files.read? options.input = some (.archive archive))
      (generated : Rules.generate groups archive options.input = .ok generation) :
      Renders files (.generate options) generation.text
        (some ⟨generation.classCount, groups.length⟩)
  /-- The names of the callers. -/
  | callTargets {options : ListCallers} {archive : Archive} {callers : List String}
      (input : files.read? options.input = some (.archive archive))
      (called : CallTarget.callers ⟨options.method, options.descriptor⟩ archive options.input
        options.exclude = .ok callers) :
      Renders files (.callTargets options) (Json.Value.lines callers) none

variable {command : Command} {launcher : Launcher} {summary : Option Summary} {output : String}

/-- The text depends on what the inputs hold, and on nothing else. -/
theorem Renders.of_read?_eq_some (h : Renders files command text summary)
    (hinputs : ∀ input ∈ command.inputs, ∀ content, files.read? input = some content →
      after.read? input = some content) : Renders after command text summary := by
  cases h with
  | generate rules parsed resolved input generated =>
    obtain ⟨content, hcontent, htext⟩ := Option.bind_eq_some_iff.mp rules
    have hrules := hinputs _ (List.mem_cons_of_mem _ List.mem_cons_self) _ hcontent
    exact .generate (Option.bind_eq_some_iff.mpr ⟨content, hrules, htext⟩) parsed resolved
      (hinputs _ List.mem_cons_self _ input) generated
  | callTargets input called =>
    exact .callTargets (hinputs _ List.mem_cons_self _ input) called

/-! ## Runs -/

theorem failsSafe_save (path text : String) : (save path text).FailsSafe :=
  fun _ _ _ h _ => FileSystem.file?_of_save_eq_error h

theorem Generate.perform_run_eq_ok_iff {options : Generate} {summary : Summary} :
    options.run.perform files = (after, .ok summary) ↔ ∃ text,
      Renders files (.generate options) text (some summary) ∧
        files.save options.output text = (after, .ok ()) := by
  constructor
  · intro h
    obtain ⟨_, -, h⟩ := (looks_requireInput _).perform_bind_eq_ok_iff.mp h
    obtain ⟨groups, hgroups, h⟩ := (looks_loadRules _).perform_bind_eq_ok_iff.mp h
    obtain ⟨archive, hinput, h⟩ := (looks_readArchive _).perform_bind_eq_ok_iff.mp h
    obtain ⟨generation, hgenerated, h⟩ := (Session.looks_ofView _).perform_bind_eq_ok_iff.mp h
    obtain ⟨_, hsave, rfl⟩ := Session.perform_bind_pure_eq_ok_iff.mp h
    obtain ⟨text, hrules, file, hparsed, hresolved⟩ := loadRules_eq_ok_iff.mp hgroups
    exact ⟨generation.text, .generate hrules hparsed hresolved (readArchive_eq_ok_iff.mp hinput)
      hgenerated, hsave⟩
  · rintro ⟨text, hrenders, hsave⟩
    obtain ⟨hrules, hparsed, hresolved, hinput, hgenerated⟩ := hrenders
    refine (looks_requireInput _).perform_bind_eq_ok_iff.mpr
      ⟨(), requireInput_eq_ok_iff.mpr (exists_of_read?_eq_some hinput), ?_⟩
    refine (looks_loadRules _).perform_bind_eq_ok_iff.mpr
      ⟨_, loadRules_eq_ok_iff.mpr ⟨_, hrules, _, hparsed, hresolved⟩, ?_⟩
    refine (looks_readArchive _).perform_bind_eq_ok_iff.mpr
      ⟨_, readArchive_eq_ok_iff.mpr hinput, ?_⟩
    refine (Session.looks_ofView _).perform_bind_eq_ok_iff.mpr ⟨_, hgenerated, ?_⟩
    exact Session.perform_bind_pure_eq_ok_iff.mpr ⟨(), hsave, rfl⟩

theorem ListCallers.perform_run_eq_ok_iff {options : ListCallers} {result : Unit} :
    options.run.perform files = (after, .ok result) ↔ ∃ text,
      Renders files (.callTargets options) text none ∧
        files.save options.output text = (after, .ok ()) := by
  constructor
  · intro h
    obtain ⟨_, -, h⟩ := (looks_requireInput _).perform_bind_eq_ok_iff.mp h
    obtain ⟨archive, hinput, h⟩ := (looks_readArchive _).perform_bind_eq_ok_iff.mp h
    obtain ⟨callers, hcalled, h⟩ := (Session.looks_ofView _).perform_bind_eq_ok_iff.mp h
    exact ⟨_, .callTargets (readArchive_eq_ok_iff.mp hinput) hcalled, h⟩
  · rintro ⟨text, hrenders, hsave⟩
    obtain _ | ⟨hinput, hcalled⟩ := hrenders
    refine (looks_requireInput _).perform_bind_eq_ok_iff.mpr
      ⟨(), requireInput_eq_ok_iff.mpr (exists_of_read?_eq_some hinput), ?_⟩
    refine (looks_readArchive _).perform_bind_eq_ok_iff.mpr
      ⟨_, readArchive_eq_ok_iff.mpr hinput, ?_⟩
    exact (Session.looks_ofView _).perform_bind_eq_ok_iff.mpr ⟨_, hcalled, hsave⟩

/-- **A run succeeds exactly if there is a text to save and it can be saved.** -/
theorem Command.perform_run_eq_ok_iff (houtput : command.output? = some output) :
    (command.run launcher).perform files = (after, .ok summary) ↔ ∃ text,
      Renders files command text summary ∧ files.save output text = (after, .ok ()) := by
  cases command with
  | generate options =>
    obtain rfl := Option.some.inj houtput
    refine Session.perform_bind_pure_eq_ok_iff.trans ⟨?_, ?_⟩
    · rintro ⟨summary, hrun, rfl⟩
      exact Generate.perform_run_eq_ok_iff.mp hrun
    · rintro ⟨text, hrenders, hsave⟩
      obtain ⟨summary, rfl⟩ : ∃ reported, summary = some reported := by
        cases hrenders
        exact ⟨_, rfl⟩
      exact ⟨summary, Generate.perform_run_eq_ok_iff.mpr ⟨text, hrenders, hsave⟩, rfl⟩
  | callTargets options =>
    obtain rfl := Option.some.inj houtput
    refine Session.perform_bind_pure_eq_ok_iff.trans ⟨?_, ?_⟩
    · rintro ⟨_, hrun, rfl⟩
      exact ListCallers.perform_run_eq_ok_iff.mp hrun
    · rintro ⟨text, hrenders, hsave⟩
      obtain rfl : summary = none := by cases hrenders; rfl
      exact ⟨(), ListCallers.perform_run_eq_ok_iff.mpr ⟨text, hrenders, hsave⟩, rfl⟩
  | diff options => cases houtput
  | apply options => cases houtput

theorem Generate.failsSafe_run (options : Generate) : options.run.FailsSafe :=
  (looks_requireInput _).bind_failsSafe fun _ =>
    (looks_loadRules _).bind_failsSafe fun _ =>
      (looks_readArchive _).bind_failsSafe fun _ =>
        (Session.looks_ofView _).bind_failsSafe fun _ => (failsSafe_save _ _).bind_pure _

theorem ListCallers.failsSafe_run (options : ListCallers) : options.run.FailsSafe :=
  (looks_requireInput _).bind_failsSafe fun _ =>
    (looks_readArchive _).bind_failsSafe fun _ =>
      (Session.looks_ofView _).bind_failsSafe fun _ => failsSafe_save _ _

theorem Command.failsSafe_run (houtput : command.output? = some output) :
    (command.run launcher).FailsSafe := by
  cases command with
  | generate options => exact options.failsSafe_run.bind_pure _
  | callTargets options => exact options.failsSafe_run.bind_pure _
  | diff options => cases houtput
  | apply options => cases houtput

/-- **A run that fails leaves every file as it was.  A run that succeeds leaves the text under the
output path and every other file as it was, and can be repeated without any change unless an input
is that file.** -/
theorem Command.run_all_or_nothing (houtput : command.output? = some output) :
    (∀ failure, (command.run launcher).perform files = (after, .error failure) →
      ∀ location, after.file? location = files.file? location) ∧
    ∀ summary, (command.run launcher).perform files = (after, .ok summary) →
      ∃ text target, Renders files command text summary ∧
        after.resolve? output = some target ∧ after.file? target = some (.ofText text) ∧
        (∀ location, location ≠ target → after.file? location = files.file? location) ∧
        ((∀ input ∈ command.inputs, files.resolve? input ≠ some target) →
          (command.run launcher).perform after = (after, .ok summary)) := by
  refine ⟨fun failure hrun => Command.failsSafe_run houtput hrun, fun summary hrun => ?_⟩
  obtain ⟨text, hrenders, hsave⟩ := (Command.perform_run_eq_ok_iff houtput).mp hrun
  obtain ⟨hextends, target, hresolve, htext, hothers⟩ := FileSystem.exists_of_save_eq_ok hsave
  refine ⟨text, target, hrenders, hresolve, htext, hothers, fun hinputs => ?_⟩
  -- each input is another file, and the path to it leads where it led
  have hrenders' : Renders after command text summary := by
    refine hrenders.of_read?_eq_some fun input hinput content hread => ?_
    refine hextends.read?_eq_some hread fun location hlocation => hothers location ?_
    rintro rfl
    exact hinputs input hinput hlocation
  exact (Command.perform_run_eq_ok_iff houtput).mpr
    ⟨text, hrenders', FileSystem.save_again hsave⟩

/-! ### A listing of all classes -/

open Rules (RulesFile graphWithoutB withoutB)

/-- An archive, and rules for all of its classes. -/
def jarAndRules : FileSystem where
  nodes := [(["a.jar"], .file (.archive withoutB)),
    (["rules.json"], .file (.ofText RulesFile.positional))]

/-- The group of these rules. -/
def everyClass : Rules.Group :=
  ⟨"g", ⟨"public", false, Rules.Access.publicFlag⟩, .always, .classes⟩

/-- The same files with the listing, in a directory of its own. -/
def withListing : FileSystem where
  nodes := (["at.cfg", "out"],
      .file (.ofText (Rules.listing [⟨"g", ["public A", "public B"]⟩]))) ::
    (["out"], .directory) :: jarAndRules.nodes

/-- The command that makes the listing. -/
def listAll : Command := .generate ⟨"a.jar", "rules.json", "out/at.cfg", false⟩

theorem renders_listAll : Renders jarAndRules listAll
    (Rules.listing [⟨"g", ["public A", "public B"]⟩]) (some ⟨2, 1⟩) := by
  have hrules : (jarAndRules.read? "rules.json").bind Content.text?
      = some RulesFile.positional := by
    have hread : jarAndRules.read? "rules.json" = some (.ofText RulesFile.positional) := rfl
    have htext : (Content.ofText RulesFile.positional).text? = some RulesFile.positional := by cbv
    rw [hread, Option.bind_some, htext]
  have hlines : everyClass.lines graphWithoutB = ["public A", "public B"] := by decide
  have hsections : Rules.sections graphWithoutB [everyClass]
      = .ok [⟨"g", ["public A", "public B"]⟩] := by
    rw [Rules.sections, hlines]
    rfl
  have hgenerated : Rules.generate [everyClass] withoutB "a.jar"
      = .ok ⟨Rules.listing [⟨"g", ["public A", "public B"]⟩], 2⟩ := by
    rw [Rules.generate_eq_of_classGraph Rules.classGraph_withoutB,
      Rules.outcome_of_sections_eq_ok hsections]
    rfl
  have hresolved : RulesFile.anyClass.resolve = .ok [everyClass] := rfl
  have hinput : jarAndRules.read? "a.jar" = some (.archive withoutB) := rfl
  exact @Renders.generate _ ⟨"a.jar", "rules.json", "out/at.cfg", false⟩ _ _ _ _ _ hrules
    RulesFile.ofText_positional hresolved hinput hgenerated

/-- The directory for a text is made on the way. -/
theorem save_jarAndRules (text : String) : jarAndRules.save "out/at.cfg" text =
    ({ nodes := (["at.cfg", "out"], .file (.ofText text)) :: (["out"], .directory) ::
        jarAndRules.nodes }, .ok ()) :=
  FileSystem.save_eq_ok_iff.mpr ⟨jarAndRules.put ["out"] .directory, ["at.cfg", "out"], by decide,
    ⟨by decide, ⟨["out"], by decide, by decide, by decide, by decide⟩, by decide⟩, rfl⟩

/-- The same files, where nothing gets into its place in the new directory. -/
def blocked : FileSystem := { jarAndRules with refused := [(.rename, ["out"])] }

theorem save_blocked_ne (text : String) : blocked.save "out/at.cfg" text ≠ (after, .ok ()) := by
  intro h
  obtain ⟨made, target, hmade, hadmits, -⟩ := FileSystem.save_eq_ok_iff.mp h
  have hcreated : blocked.createDirectory (Path.directory "out/at.cfg")
      = (blocked.put ["out"] .directory, true) := by decide
  obtain ⟨rfl, -⟩ := Prod.mk.inj (hcreated.symm.trans hmade)
  have hnone : (blocked.put ["out"] .directory).target? "out/at.cfg" = none := by decide
  cases hnone.symm.trans hadmits.target?_eq

/-- Making the listing, without a patch tool. -/
def listAllRun : Session (Option Summary) := listAll.run fun _ _ _ => none

theorem run_all_or_nothing_listAll :
    listAllRun.perform jarAndRules = (withListing, .ok (some ⟨2, 1⟩)) ∧
      listAllRun.perform withListing = (withListing, .ok (some ⟨2, 1⟩)) ∧
      ∃ after failure, listAllRun.perform blocked = (after, .error failure) ∧
        ∀ location, after.file? location = blocked.file? location := by
  have hrun : listAllRun.perform jarAndRules = (withListing, .ok (some ⟨2, 1⟩)) :=
    (Command.perform_run_eq_ok_iff rfl).mpr ⟨_, renders_listAll, save_jarAndRules _⟩
  refine ⟨hrun, ?_, ?_⟩
  · obtain ⟨text, target, -, htarget, -, -, hagain⟩ :=
      (Command.run_all_or_nothing rfl).2 _ hrun
    have hresolve : withListing.resolve? "out/at.cfg" = some ["at.cfg", "out"] := by decide
    obtain rfl := Option.some.inj (hresolve.symm.trans htarget)
    exact hagain (by decide)
  · rcases hblocked : listAllRun.perform blocked with ⟨after, failure | summary⟩
    · exact ⟨after, failure, rfl, (Command.run_all_or_nothing rfl).1 failure hblocked⟩
    · obtain ⟨text, -, hsave⟩ := (Command.perform_run_eq_ok_iff rfl).mp hblocked
      exact absurd hsave (save_blocked_ne text)

end AccessTransformer.CommandLine
