import AccessTransformer.Proofs.ClassFile.Causes
import AccessTransformer.Proofs.CommandLine.Options
import AccessTransformer.Proofs.CommandLine.Run

/-!
# Command lines that are taken

A command line that is taken lacks nothing that its command needs.  A comparison has a tool and one
place for its patches, and an application has a tool.  The parts of the command line say which: no
word that looks like an option stands for one where it is an argument of the tool, and what does
stand for one is not left out.

So the two failures with which a run would complain about this never come up.

* `Command.blames_run`: a command that lacks nothing runs without these complaints.
* `Diff.isAskedFor_of_ofSettings`: the place for the patches, and no second one.
* `Asks.iff_eq`: arguments give settings to a subcommand in one way.
* `ofArguments_lacks_nothing`: a command line that is taken lacks nothing.
-/

namespace AccessTransformer

/-! ## Complaints -/

/-- Whether a cause is another one than that a command lacks something. -/
def Cause.IsNoLack : Cause → Prop
  | .noPatchOutput | .emptyToolCommand => False
  | _ => True

theorem Cause.isNoLack_of_isOfClassFile {cause : Cause} (h : cause.IsOfClassFile) :
    cause.IsNoLack := by
  cases cause with
  | noPatchOutput => exact h
  | emptyToolCommand => exact h
  | _ => trivial

/-- What the system refuses is nothing that a command lacks, in whatever step it does so. -/
theorem Outcome.blames_system {α : Type} (step : Step) :
    (Outcome.during step (Outcome.fail .system : Outcome α)).Blames Cause.IsNoLack :=
  (Outcome.blames_fail trivial).during step

/-! ## What commands are made of -/

theorem ClassGraph.blames_linkFields (graph : ClassGraph) (fields : List Member) :
    (graph.linkFields fields).2.Blames Cause.IsNoLack := by
  induction fields generalizing graph with
  | nil => exact Outcome.blames_ok []
  | cons field fields ih =>
    unfold linkFields
    split
    · exact (Outcome.blames_fail trivial).during _
    · exact (ih _).map _

theorem ClassGraph.blames_visit (graph : ClassGraph) (declaration : ClassDeclaration) :
    (graph.visit declaration).2.Blames Cause.IsNoLack := by
  simp only [visit]
  by_cases hvisited : (graph.ensure declaration.name).2 ∈ (graph.ensure declaration.name).1.visited
  · rw [if_pos hvisited]
    exact Outcome.blames_fail trivial
  · rw [if_neg hvisited]
    have hlink := blames_linkFields
      ((graph.ensure declaration.name).1.ensureAll (supertypes declaration)).1 declaration.fields
    rcases hlinked : ((graph.ensure declaration.name).1.ensureAll
      (supertypes declaration)).1.linkFields declaration.fields with ⟨full, failure | fields⟩
    · rw [hlinked] at hlink
      exact hlink.error
    · exact Outcome.blames_ok _

theorem Archive.blames_visitEntry (path : String) (graph : ClassGraph) (entry : Entry) :
    (visitEntry path graph entry).2.Blames Cause.IsNoLack := by
  unfold visitEntry
  split
  · rename_i failure hread
    have hblames := ClassDeclaration.blames_read entry.content
    rw [hread] at hblames
    exact (hblames.imp fun _ => Cause.isNoLack_of_isOfClassFile).error.during _
  · rename_i declaration hread
    have hvisit := graph.blames_visit declaration
    split
    · rename_i hvisited
      rw [hvisited] at hvisit
      exact hvisit.error.during _
    · exact Outcome.blames_ok ()

theorem Archive.blames_classGraph (archive : Archive) (path : String) :
    (archive.classGraph path).Blames Cause.IsNoLack := by
  have hwalk := blames_walk (blames_visitEntry path) archive ClassGraph.empty
  rw [classGraph]
  rcases hvisited : archive.walk (visitEntry path) ClassGraph.empty with ⟨graph, failure | count⟩
  · rw [hvisited] at hwalk
    exact hwalk.error
  · exact Outcome.blames_ok graph

theorem CallTarget.blames_visitEntry (target : CallTarget) (path : String)
    (excluded callers : List String) (entry : Archive.Entry) :
    (target.visitEntry path excluded callers entry).2.Blames Cause.IsNoLack := by
  unfold visitEntry
  split
  · exact Outcome.blames_ok ()
  · split
    · rename_i failure hread
      have hblames := ClassCalls.blames_read entry.content
      rw [hread] at hblames
      exact (hblames.imp fun _ => Cause.isNoLack_of_isOfClassFile).error.during _
    · split <;> exact Outcome.blames_ok ()

theorem CallTarget.blames_callers (target : CallTarget) (archive : Archive) (path : String)
    (excluded : List String) : (target.callers archive path excluded).Blames Cause.IsNoLack := by
  have hwalk := Archive.blames_walk (target.blames_visitEntry path excluded) archive []
  rw [callers]
  rcases hvisited : archive.walk (target.visitEntry path excluded) [] with
    ⟨callers, failure | count⟩
  · rw [hvisited] at hwalk
    exact hwalk.error
  · exact Outcome.blames_ok _

theorem Rules.blames_generate (groups : List Rules.Group) (archive : Archive) (path : String) :
    (Rules.generate groups archive path).Blames Cause.IsNoLack := by
  refine (archive.blames_classGraph path).bind fun graph => ?_
  exact (Outcome.blames_lift (fun _ => trivial) _).bind fun _ => Outcome.blames_ok _

theorem FileSystem.blames_save (files : FileSystem) (path text : String) :
    (files.save path text).2.Blames Cause.IsNoLack := by
  unfold save
  dsimp only
  split
  · exact Outcome.blames_system _
  · split
    · exact Outcome.blames_system _
    · split_ifs
      · exact Outcome.blames_system _
      · exact Outcome.blames_system _
      · split
        · exact Outcome.blames_system _
        · exact Outcome.blames_ok ()

theorem FileSystem.blames_clear (files : FileSystem) (path : String) :
    (files.clear path).2.Blames Cause.IsNoLack := by
  unfold clear
  split
  · exact Outcome.blames_fail trivial
  · dsimp only
    split_ifs
    · exact Outcome.blames_fail trivial
    · split <;> exact Outcome.blames_ok ()
    · split
      · exact Outcome.blames_ok ()
      · exact Outcome.blames_fail trivial

namespace Patches

theorem blames_clearRejects (rejects : String) :
    (clearRejects rejects).Blames Cause.IsNoLack := by
  refine Session.Blames.during (Session.blames_ofChange fun files => ?_) _
  split_ifs
  · exact files.blames_clear rejects
  · exact Outcome.blames_ok ()

theorem blames_rejectsIn (rejects : String) (files : FileSystem) :
    (rejectsIn rejects files).Blames Cause.IsNoLack := by
  unfold rejectsIn
  split
  · exact Outcome.blames_ok _
  · split_ifs
    · exact Outcome.blames_ok _
    · exact Outcome.blames_system _

namespace Tool

variable (tool : Tool) (launcher : Launcher)

theorem blames_run (arguments : List String) :
    (tool.run launcher arguments).Blames Cause.IsNoLack := by
  refine Session.blames_ofChange fun files => ?_
  split
  · exact Outcome.blames_system _
  · exact Outcome.blames_ok _

theorem blames_diff (request : DiffRequest) :
    (tool.diff launcher request).Blames Cause.IsNoLack := by
  intro files
  rw [diff, Session.perform_get_bind]
  refine (tool.blames_run launcher _).bind (fun code => Session.blames_ofView fun _ => ?_) files
  unfold DiffStatus.ofExit
  split
  · exact Outcome.blames_fail trivial
  · split_ifs
    · exact Outcome.blames_ok _
    · exact Outcome.blames_ok _
    · exact Outcome.blames_fail trivial

theorem blames_apply (request : ApplyRequest) :
    (tool.apply launcher request).Blames Cause.IsNoLack := by
  refine (blames_clearRejects _).bind fun _ files => ?_
  rw [Session.perform_get_bind]
  refine (tool.blames_run launcher _).bind (fun code => ?_) files
  refine (Session.blames_ofView fun _ => ?_).bind fun _ =>
    Session.blames_ofView fun files => blames_rejectsIn _ files
  unfold checkExit
  split
  · exact Outcome.blames_fail trivial
  · split_ifs
    · exact Outcome.blames_ok ()
    · exact Outcome.blames_fail trivial

/-- A command that is not empty starts a tool. -/
theorem blames_ofCommand {command : List String} (h : command ≠ []) :
    (ofCommand command).Blames Cause.IsNoLack := by
  cases command with
  | nil => exact absurd rfl h
  | cons program leading => exact Outcome.blames_ok _

end Tool

end Patches

namespace CommandLine

/-! ## Runs -/

theorem blames_requireInput (path : String) : (requireInput path).Blames Cause.IsNoLack := by
  refine Session.blames_ofView fun files => ?_
  split_ifs
  · exact Outcome.blames_ok ()
  · exact Outcome.blames_fail trivial

theorem blames_readText (path : String) : (readText path).Blames Cause.IsNoLack := by
  refine Session.Blames.during (Session.blames_ofView fun files => ?_) _
  split
  · exact Outcome.blames_ok _
  · exact Outcome.blames_fail trivial

theorem blames_readArchive (path : String) : (readArchive path).Blames Cause.IsNoLack := by
  refine Session.Blames.during (Session.blames_ofView fun files => ?_) _
  split
  · exact Outcome.blames_ok _
  · exact Outcome.blames_fail trivial

theorem blames_loadRules (path : String) : (loadRules path).Blames Cause.IsNoLack := by
  refine (blames_readText path).bind fun text => ?_
  refine (Session.blames_ofView fun _ => Outcome.Blames.during ?_ _).bind fun file => ?_
  · exact Outcome.blames_lift (fun _ => trivial) _
  · exact Session.blames_ofView fun _ =>
      (Outcome.blames_lift (fun _ => trivial) _).during _

theorem blames_save (path text : String) : (save path text).Blames Cause.IsNoLack :=
  fun files => files.blames_save path text

/-- Whether a command lacks nothing that it needs to start. -/
def Command.LacksNothing : Command → Prop
  | .generate _ | .callTargets _ => True
  | .diff options => (∃ output, options.patchOutput = .ok output) ∧ options.tool ≠ []
  | .apply options => options.tool ≠ []

/-- **A command that lacks nothing is never told so.** -/
theorem Command.blames_run {command : Command} (h : command.LacksNothing) (launcher : Launcher) :
    (command.run launcher).Blames Cause.IsNoLack := by
  cases command with
  | generate options =>
    refine Session.Blames.bind ?_ fun _ => Session.blames_pure _
    refine (blames_requireInput _).bind fun _ => (blames_loadRules _).bind fun groups => ?_
    refine (blames_readArchive _).bind fun archive => ?_
    refine (Session.blames_ofView fun _ => Rules.blames_generate _ _ _).bind fun generation => ?_
    exact (blames_save _ _).bind fun _ => Session.blames_pure _
  | callTargets options =>
    refine Session.Blames.bind ?_ fun _ => Session.blames_pure _
    refine (blames_requireInput _).bind fun _ => (blames_readArchive _).bind fun archive => ?_
    refine (Session.blames_ofView fun _ => CallTarget.blames_callers _ _ _ _).bind fun callers => ?_
    exact blames_save _ _
  | diff options =>
    obtain ⟨⟨output, houtput⟩, htool⟩ := h
    refine Session.Blames.bind ?_ fun _ => Session.blames_pure _
    refine (blames_requireInput _).bind fun _ => (blames_requireInput _).bind fun _ => ?_
    refine (Session.blames_ofView fun _ => ?_).bind fun output => ?_
    · rw [houtput]
      exact Outcome.blames_ok output
    · refine (Session.blames_ofView fun _ => ?_).bind fun tool => ?_
      · exact Patches.Tool.blames_ofCommand htool
      · exact (tool.blames_diff launcher _).bind fun _ => Session.blames_pure _
  | apply options =>
    refine Session.Blames.bind ?_ fun _ => Session.blames_pure _
    refine (blames_requireInput _).bind fun _ => (blames_requireInput _).bind fun _ => ?_
    refine (Session.blames_ofView fun _ => Patches.Tool.blames_ofCommand h).bind fun tool => ?_
    refine (tool.blames_apply launcher _).bind fun rejects => Session.blames_ofView fun _ => ?_
    split_ifs
    · exact Outcome.blames_ok ()
    · exact Outcome.blames_fail trivial

/-! ## Settings that amount to a command -/

theorem Settings.required_eq_ok_iff {settings : Settings} {name value : String} :
    settings.required name = .ok value ↔ settings.first? name = some value := by
  unfold required
  split
  · rename_i other hother
    simp [hother]
  · rename_i hnone
    simp [hnone]

theorem Settings.all_ne_nil_of_required {settings : Settings} {name value : String}
    (h : settings.required name = .ok value) : settings.all name ≠ [] := by
  intro hnil
  have hfirst := Settings.required_eq_ok_iff.mp h
  rw [first?, hnil] at hfirst
  cases hfirst

/-- An option with one value has one place among all values. -/
theorem Settings.filter_values_of_all {settings : Settings} {name value : String}
    (h : settings.all name = [value]) :
    settings.values.filter (fun value => value.1 = name) = [(name, value)] := by
  obtain ⟨given, hgiven, rfl⟩ := List.map_eq_singleton_iff.mp h
  have hmem : given ∈ settings.values.filter fun value => value.1 = name := by
    rw [hgiven]
    exact List.mem_singleton_self given
  rw [hgiven, ← of_decide_eq_true (List.mem_filter.mp hmem).2]

/-! ## Comparing -/

/-- The option for the place of patches, with its value. -/
def placeValue : Patches.Output → String × String
  | .archive path => ("patches-archive", path)
  | .directory path => ("patches-dir", path)

/-- The values that settings have for the options for the place of patches. -/
def Settings.places (settings : Settings) : List (String × String) :=
  settings.values.filter fun value => value.1 = "patches-dir" ∨ value.1 = "patches-archive"

/-- Where only one of the two options has values, those are all of the places. -/
theorem Settings.places_eq_filter {settings : Settings} {name other : String}
    (hnames : ∀ given : String, given = "patches-dir" ∨ given = "patches-archive" ↔
      given = name ∨ given = other) (hother : settings.all other = []) :
    settings.places = settings.values.filter fun value => value.1 = name := by
  refine List.filter_congr fun value hvalue => decide_eq_decide.mpr ?_
  rw [hnames]
  refine or_iff_left fun heq => ?_
  have hmem : value ∈ settings.values.filter fun value => value.1 = other :=
    List.mem_filter.mpr ⟨hvalue, decide_eq_true heq⟩
  rw [List.map_eq_nil_iff.mp hother] at hmem
  cases hmem

/-- Whether a comparison is what settings ask for, with all that it needs: a tool, and one place
for the patches. -/
structure Diff.IsAskedFor (options : Diff) (settings : Settings) : Prop where
  tool_eq : options.tool = settings.all "tool"
  tool_ne_nil : options.tool ≠ []
  exactly_one : options.patchesDir = none ↔ options.patchesArchive ≠ none
  place : ∃ output, options.patchOutput = .ok output ∧ settings.places = [placeValue output]

/-- An option that may be given once and has a value has no other. -/
theorem Settings.IsSingle.all_eq {form : Form} {settings : Settings} {name value : String}
    {taking : Taking} (h : settings.IsSingle form) (hknown : form.options.lookup name = some taking)
    (honce : ¬taking.Repeats) (hvalue : settings.first? name = some value) :
    settings.all name = [value] := by
  have hlength := h name taking hknown honce
  rw [first?] at hvalue
  obtain ⟨rest, hall⟩ := List.head?_eq_some_iff.mp hvalue
  rw [hall] at hlength ⊢
  rw [List.eq_nil_of_length_eq_zero (Nat.le_zero.mp (Nat.le_of_succ_le_succ hlength))]

theorem Settings.all_eq_nil_of_first? {settings : Settings} {name : String}
    (h : settings.first? name = none) : settings.all name = [] :=
  List.head?_eq_none_iff.mp h

theorem Diff.isAskedFor_of_ofSettings {settings : Settings} {options : Diff}
    (hsingle : settings.IsSingle Diff.form) (h : Diff.ofSettings settings = .ok options) :
    options.IsAskedFor settings := by
  unfold Diff.ofSettings at h
  dsimp only at h
  split_ifs at h with hboth hnone
  obtain ⟨tool, htool, h⟩ := bind_eq_ok_iff.mp h
  obtain ⟨base, -, h⟩ := bind_eq_ok_iff.mp h
  obtain ⟨modified, -, h⟩ := bind_eq_ok_iff.mp h
  obtain rfl := Except.ok.inj h
  refine ⟨rfl, Settings.all_ne_nil_of_required htool, ?_, ?_⟩
  · exact ⟨fun hdir harchive => hnone ⟨hdir, harchive⟩,
      fun harchive => not_not.mp fun hdir => hboth ⟨hdir, harchive⟩⟩
  · cases hdir : settings.first? "patches-dir" with
    | some path =>
      have harchive : settings.first? "patches-archive" = none :=
        not_not.mp fun harchive => hboth ⟨hdir ▸ Option.some_ne_none path, harchive⟩
      refine ⟨.directory path, by rw [patchOutput, harchive], ?_⟩
      rw [Settings.places_eq_filter (fun _ => Iff.rfl) (Settings.all_eq_nil_of_first? harchive)]
      exact Settings.filter_values_of_all (hsingle.all_eq rfl id hdir)
    | none =>
      obtain ⟨path, harchive⟩ := Option.ne_none_iff_exists'.mp
        fun harchive => hnone ⟨hdir, harchive⟩
      refine ⟨.archive path, by rw [patchOutput, harchive], ?_⟩
      rw [Settings.places_eq_filter (fun _ => or_comm) (Settings.all_eq_nil_of_first? hdir)]
      exact Settings.filter_values_of_all (hsingle.all_eq rfl id harchive)

/-- Whether an application is what settings ask for, with a tool. -/
structure Apply.IsAskedFor (options : Apply) (settings : Settings) : Prop where
  tool_eq : options.tool = settings.all "tool"
  tool_ne_nil : options.tool ≠ []

theorem Apply.isAskedFor_of_ofSettings {settings : Settings} {options : Apply}
    (h : Apply.ofSettings settings = .ok options) : options.IsAskedFor settings := by
  obtain ⟨tool, htool, h⟩ := bind_eq_ok_iff.mp h
  obtain ⟨base, -, h⟩ := bind_eq_ok_iff.mp h
  obtain ⟨patches, -, h⟩ := bind_eq_ok_iff.mp h
  obtain ⟨output, -, h⟩ := bind_eq_ok_iff.mp h
  obtain ⟨rejects, -, h⟩ := bind_eq_ok_iff.mp h
  obtain rfl := Except.ok.inj h
  exact ⟨rfl, Settings.all_ne_nil_of_required htool⟩

/-! ## Whole command lines -/

theorem Diff.isPlain_form : Diff.form.IsPlain := ⟨by decide, by decide, by decide⟩

theorem Apply.isPlain_form : Apply.form.IsPlain := ⟨by decide, by decide, by decide⟩

/-- Whether arguments give settings to a subcommand: behind the name of the program there are
flags, the subcommand, and then the parts that the settings come from. -/
def Asks (arguments : List String) (name : String) (form : Form) (settings : Settings) : Prop :=
  ∃ front rest parts, arguments.tail = front ++ name :: rest ∧
    (∀ word ∈ front, ∃ flag ∈ commonFlags, word = longWord flag none) ∧
    settings.Spells form parts rest

/-- Arguments give settings to a subcommand in one way, if it is not named like a flag. -/
theorem Asks.iff_eq {arguments : List String} {name : String} {form : Form} {settings : Settings}
    (hform : form.IsPlain) (hname : ∀ flag ∈ commonFlags, name ≠ longWord flag none)
    (h : Asks arguments name form settings) (other : Settings) :
    Asks arguments name form other ↔ other = settings := by
  refine ⟨fun hother => ?_, fun heq => heq ▸ h⟩
  obtain ⟨front, rest, parts, hsplit, hfront, hspells⟩ := h
  obtain ⟨front', rest', parts', hsplit', hfront', hspells'⟩ := hother
  have hnotMem : ∀ words : List String,
      (∀ word ∈ words, ∃ flag ∈ commonFlags, word = longWord flag none) → name ∉ words := by
    intro words hwords hmem
    obtain ⟨flag, hflag, heq⟩ := hwords name hmem
    exact hname flag hflag heq
  have heq : front ++ name :: rest = front' ++ name :: rest' := hsplit.symm.trans hsplit'
  -- the subcommand stands where it does first
  have hlength : front.length = front'.length := by
    have hfirst := congrArg (List.idxOf name) heq
    rw [List.idxOf_append_of_notMem (hnotMem front hfront),
      List.idxOf_append_of_notMem (hnotMem front' hfront'), List.idxOf_cons_self,
      List.idxOf_cons_self] at hfirst
    exact hfirst
  obtain rfl : rest = rest' := (List.cons.inj (List.append_inj_right heq hlength)).2
  have hread := (Settings.ofArguments_eq_ok_iff hform).mpr ⟨parts, hspells⟩
  have hread' := (Settings.ofArguments_eq_ok_iff hform).mpr ⟨parts', hspells'⟩
  exact Except.ok.inj (hread'.symm.trans hread)

/-- Flags and a subcommand are all that a command line is read for in front of the options. -/
theorem exists_front_of_parse {flags arguments : List String} {line : CommandLine}
    (h : parse flags arguments = .ok line) : ∃ front name rest subcommand flags,
      arguments = front ++ name :: rest ∧
        (∀ word ∈ front, ∃ flag ∈ commonFlags, word = longWord flag none) ∧
        Subcommand.ofName? name = some subcommand ∧ subcommand.parse flags rest = .ok line := by
  induction arguments generalizing flags with
  | nil => cases h
  | cons argument arguments ih =>
    rw [parse] at h
    split at h
    · cases h
    · rename_i name value hlook
      split_ifs at h with hknown hvalue hhelp hversion htwice
      obtain ⟨front, subcommand, rest, subcommandOf, flags, rfl, hfront, hname, hparse⟩ := ih h
      refine ⟨argument :: front, subcommand, rest, subcommandOf, flags, rfl, ?_, hname, hparse⟩
      refine List.forall_mem_cons.mpr ⟨⟨name, ?_, ?_⟩, hfront⟩
      · exact (hknown.resolve_left hhelp).resolve_left hversion
      · rw [← not_not.mp hvalue]
        exact Settings.eq_longWord_of_look hlook
    · split_ifs at h
    · split_ifs at h with hhelp
      split at h
      · rename_i subcommand hname
        exact ⟨[], argument, arguments, subcommand, flags, rfl, nofun, hname, h⟩
      · cases h

/-- What a command line asks for whose subcommand is the one of this name. -/
theorem Subcommand.command_eq_ok {name : String} {subcommand : Subcommand} {settings : Settings}
    {command : Command} (hname : ofName? name = some subcommand)
    (hcommand : subcommand.command settings = .ok command) :
    match command with
    | .generate _ | .callTargets _ => True
    | .diff options => name = "diff" ∧ subcommand.form = Diff.form ∧
        Diff.ofSettings settings = .ok options
    | .apply options => name = "apply" ∧ subcommand.form = Apply.form ∧
        Apply.ofSettings settings = .ok options := by
  unfold ofName? at hname
  split_ifs at hname with hgenerate hcallers hdiff happly
  all_goals
    obtain rfl := Option.some.inj hname
    obtain ⟨options, hoptions, rfl⟩ := map_eq_ok_iff.mp hcommand
  · trivial
  · trivial
  · exact ⟨hdiff, rfl, hoptions⟩
  · exact ⟨happly, rfl, hoptions⟩

/-- **A command line that is taken lacks nothing.**  For a comparison and for an application, the
arguments give settings in one way, and those have all that is needed. -/
theorem ofArguments_lacks_nothing {arguments : List String} {line : CommandLine}
    (h : ofArguments arguments = .ok line) :
    (∀ options, line.command = .diff options → ∃ settings,
      (∀ other, Asks arguments "diff" Diff.form other ↔ other = settings) ∧
        options.IsAskedFor settings) ∧
    (∀ options, line.command = .apply options → ∃ settings,
      (∀ other, Asks arguments "apply" Apply.form other ↔ other = settings) ∧
        options.IsAskedFor settings) ∧
    ∀ launcher, (line.command.run launcher).Blames Cause.IsNoLack := by
  obtain ⟨front, name, rest, subcommand, flags, harguments, hfront, hname, hparse⟩ :=
    exists_front_of_parse h
  obtain ⟨settings, hsettings, hparse⟩ := bind_eq_ok_iff.mp hparse
  obtain ⟨command, hcommand, hline⟩ := bind_eq_ok_iff.mp hparse
  obtain rfl := Except.ok.inj hline
  obtain ⟨parts, hspells⟩ := Settings.exists_spells hsettings
  have hasks : Asks arguments name subcommand.form settings :=
    ⟨front, rest, parts, harguments, hfront, hspells⟩
  have hof := Subcommand.command_eq_ok hname hcommand
  cases command with
  | generate options => exact ⟨nofun, nofun, Command.blames_run trivial⟩
  | callTargets options => exact ⟨nofun, nofun, Command.blames_run trivial⟩
  | diff options =>
    obtain ⟨rfl, hform, hof⟩ := hof
    have hasked : options.IsAskedFor settings :=
      Diff.isAskedFor_of_ofSettings (hform ▸ hspells.isSingle) hof
    obtain ⟨output, houtput, -⟩ := hasked.place
    refine ⟨?_, nofun, Command.blames_run ⟨⟨output, houtput⟩, hasked.tool_ne_nil⟩⟩
    rintro _ ⟨⟩
    rw [hform] at hasks
    exact ⟨settings, hasks.iff_eq Diff.isPlain_form (by decide), hasked⟩
  | apply options =>
    obtain ⟨rfl, hform, hof⟩ := hof
    have hasked : options.IsAskedFor settings := Apply.isAskedFor_of_ofSettings hof
    refine ⟨nofun, ?_, Command.blames_run hasked.tool_ne_nil⟩
    rintro _ ⟨⟩
    rw [hform] at hasks
    exact ⟨settings, hasks.iff_eq Apply.isPlain_form (by decide), hasked⟩

/-- A comparison whose tool has an argument that looks like the option for a directory of
patches. -/
def hyphenated : List String :=
  ["atgen", "--quiet", "diff", "--tool", "--patches-dir", "--patches-archive=patches.zip",
    "--base", "base.jar", "--tool", "out", "--modified", "src"]

/-- What those arguments give. -/
def hyphenatedSettings : Settings where
  values := [("tool", "--patches-dir"), ("patches-archive", "patches.zip"), ("base", "base.jar"),
    ("tool", "out"), ("modified", "src")]

theorem ofArguments_lacks_nothing_hyphenated :
    (∀ settings, Asks hyphenated "diff" Diff.form settings ↔ settings = hyphenatedSettings) ∧
    Diff.IsAskedFor ⟨["--patches-dir", "out"], "base.jar", "src", none, some "patches.zip"⟩
      hyphenatedSettings ∧
    ∀ launcher, (Command.run (.diff ⟨["--patches-dir", "out"], "base.jar", "src", none,
      some "patches.zip"⟩) launcher).Blames Cause.IsNoLack := by
  have hline : ofArguments hyphenated = .ok ⟨true, false, .diff
      ⟨["--patches-dir", "out"], "base.jar", "src", none, some "patches.zip"⟩⟩ := by
    rfl
  have hread : Settings.ofArguments Diff.form (hyphenated.drop 3) = .ok hyphenatedSettings := by
    rfl
  obtain ⟨parts, hspells⟩ := Settings.exists_spells hread
  have hasks : Asks hyphenated "diff" Diff.form hyphenatedSettings :=
    ⟨["--quiet"], _, parts, rfl, by decide, hspells⟩
  obtain ⟨hdiff, -, hblames⟩ := ofArguments_lacks_nothing hline
  obtain ⟨settings, hgiven, hasked⟩ := hdiff _ rfl
  obtain rfl := (hgiven _).mp hasks
  exact ⟨hgiven, hasked, hblames⟩

end CommandLine

end AccessTransformer
