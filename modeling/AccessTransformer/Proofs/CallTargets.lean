import AccessTransformer.CallTargets
import AccessTransformer.Proofs.Archive
import AccessTransformer.Proofs.Outcomes
import AccessTransformer.Proofs.Text.Order
import Mathlib

/-!
# The callers of a method in an archive

Looking for callers goes through the class files in the order of their names and collects what it
finds.  What it has collected never decides whether the next file can be read, and neither do the
classes that are to be left out.  So the search is the same as reading all files first and choosing
among them afterwards, and everything else follows from that.

* `steps_visitEntry`, `callers_eq`: files are read one by one, and the callers chosen among them.
* `callers_complete_or_first_failure`: which names are found, which failure is reported, and what it
  changes to leave out more classes.
-/

namespace AccessTransformer.CallTarget

open Archive (Entry steps endsIn)

variable {target : CallTarget} {archive : Archive} {path name : String}
  {excluded names names' callers : List String} {entries : List Entry} {read : List ClassCalls}

/-! ## Names in order -/

theorem mem_inOrder_iff : name ∈ inOrder names ↔ name ∈ names :=
  Text.mem_eraseReps_sort_iff

theorem nodup_inOrder (names : List String) : (inOrder names).Nodup :=
  Text.nodup_eraseReps_sort names

theorem pairwise_inOrder (names : List String) : (inOrder names).Pairwise (Text.le · · = true) :=
  Text.pairwise_eraseReps_sort names

theorem inOrder_eq_inOrder (hmem : ∀ name, name ∈ names ↔ name ∈ names') :
    inOrder names = inOrder names' :=
  Text.eq_eraseReps_sort (nodup_inOrder _) (pairwise_inOrder _) fun name => by
    rw [mem_inOrder_iff, hmem]

/-- Names can be left out before or after they are put in order. -/
theorem filter_inOrder (keep : String → Bool) (names : List String) :
    (inOrder names).filter keep = inOrder (names.filter keep) :=
  Text.eq_eraseReps_sort ((nodup_inOrder names).filter _) ((pairwise_inOrder names).filter _)
    fun name => by rw [List.mem_filter, List.mem_filter, mem_inOrder_iff]

/-! ## Reading and choosing -/

/-- Whether an entry is read: a class file that is no description of a module. -/
def IsScanned (entry : Entry) : Prop :=
  entry.isClass = true ∧ endsIn moduleSuffix entry.name = false

instance (entry : Entry) : Decidable (IsScanned entry) := inferInstanceAs (Decidable (_ ∧ _))

/-- Whether a class makes a virtual call to the method in any of its methods, whatever class the
call goes to. -/
def IsCaller (target : CallTarget) (calls : ClassCalls) : Prop :=
  ∃ method ∈ calls.methods, ∃ call ∈ method.calls,
    call.kind = .virtual ∧ call.name = target.name ∧ call.descriptor = target.descriptor

theorem isCalledIn_iff {calls : ClassCalls} :
    target.isCalledIn calls = true ↔ target.IsCaller calls := by
  simp [isCalledIn, isCalledBy, IsCaller]

/-- The calls in an entry of the archive with the given path. -/
def readEntry (path : String) (entry : Entry) : Outcome ClassCalls :=
  (ClassCalls.read entry.content).during (.entry path entry.name)

/-- The calls in all entries that are read. -/
def readEntries (path : String) (entries : List Entry) : Outcome (List ClassCalls) :=
  (entries.filter fun entry => !endsIn moduleSuffix entry.name).mapM (readEntry path)

/-- The names of the callers among classes that were read, without those excluded. -/
def chosen (target : CallTarget) (excluded : List String) (read : List ClassCalls) : List String :=
  (read.filter fun calls => calls.name ∉ excluded ∧ target.isCalledIn calls).map (·.name)

theorem mem_chosen_iff : name ∈ target.chosen excluded read ↔
    name ∉ excluded ∧ ∃ calls ∈ read, calls.name = name ∧ target.IsCaller calls := by
  simp only [chosen, List.mem_map, List.mem_filter, decide_eq_true_eq, isCalledIn_iff]
  constructor
  · rintro ⟨calls, ⟨hread, hexcluded, hcaller⟩, rfl⟩
    exact ⟨hexcluded, calls, hread, rfl, hcaller⟩
  · rintro ⟨hexcluded, calls, hread, rfl, hcaller⟩
    exact ⟨calls, ⟨hread, hexcluded, hcaller⟩, rfl⟩

theorem chosen_cons (target : CallTarget) (excluded : List String) (calls : ClassCalls)
    (read : List ClassCalls) : target.chosen excluded (calls :: read)
      = target.chosen excluded [calls] ++ target.chosen excluded read := by
  show (([calls] ++ read).filter _).map _ = _
  rw [List.filter_append, List.map_append]
  rfl

/-- Leaving out more classes takes their names away. -/
theorem chosen_of_subset {excluded' : List String} (h : excluded ⊆ excluded') :
    target.chosen excluded' read = (target.chosen excluded read).filter (· ∉ excluded') := by
  rw [chosen, chosen, List.filter_map, List.filter_filter]
  refine congrArg _ (List.filter_congr fun calls _ => ?_)
  by_cases hexcluded : calls.name ∈ excluded
  · simp [hexcluded, h hexcluded]
  · simp [hexcluded]

/-! ## Going through the entries -/

theorem visitEntry_of_module {entry : Entry} (h : endsIn moduleSuffix entry.name = true) :
    target.visitEntry path excluded callers entry = (callers, .ok ()) := by
  rw [visitEntry, if_pos h]

/-- A step fails exactly if the entry cannot be read, and else adds the class if it is a caller. -/
theorem visitEntry_of_class {entry : Entry} (h : endsIn moduleSuffix entry.name = false) :
    target.visitEntry path excluded callers entry =
      match readEntry path entry with
      | .ok calls => (target.chosen excluded [calls] ++ callers, .ok ())
      | .error failure => (callers, .error failure) := by
  rw [visitEntry, readEntry, if_neg (by simp [h])]
  cases ClassCalls.read entry.content with
  | error failure => rfl
  | ok calls =>
    by_cases hchosen : calls.name ∉ excluded ∧ target.isCalledIn calls
    · simp [chosen, hchosen]
    · simp [chosen, hchosen]

theorem readEntries_cons_of_module {entry : Entry} (h : endsIn moduleSuffix entry.name = true) :
    readEntries path (entry :: entries) = readEntries path entries := by
  rw [readEntries, List.filter_cons_of_neg (by simp [h]), readEntries]

theorem readEntries_cons_of_class {entry : Entry} (h : endsIn moduleSuffix entry.name = false) :
    readEntries path (entry :: entries) =
      readEntry path entry >>= fun calls =>
        readEntries path entries >>= fun read => .ok (calls :: read) := by
  rw [readEntries, List.filter_cons_of_pos (by simp [h]), List.mapM_cons]
  rfl

/-- **The steps fail as reading the entries does, and else collect the callers among them.** -/
theorem steps_visitEntry (target : CallTarget) (path : String) (excluded callers : List String)
    (entries : List Entry) :
    ∃ after, steps (target.visitEntry path excluded) callers entries
        = (after, (readEntries path entries).map fun _ => ()) ∧
      ∀ read, readEntries path entries = .ok read →
        ∀ name, name ∈ after ↔ name ∈ target.chosen excluded read ∨ name ∈ callers := by
  induction entries generalizing callers with
  | nil =>
    refine ⟨callers, rfl, fun read h name => ?_⟩
    obtain rfl : [] = read := Except.ok.inj h
    simp [chosen]
  | cons entry entries ih =>
    rw [steps]
    cases hmodule : endsIn moduleSuffix entry.name with
    | true =>
      rw [visitEntry_of_module hmodule, readEntries_cons_of_module hmodule]
      exact ih callers
    | false =>
      rw [visitEntry_of_class hmodule, readEntries_cons_of_class hmodule]
      cases readEntry path entry with
      | error failure =>
        refine ⟨callers, rfl, fun read h => ?_⟩
        cases h
      | ok calls =>
        obtain ⟨after, hsteps, hafter⟩ := ih (target.chosen excluded [calls] ++ callers)
        refine ⟨after, ?_, fun read (h : (readEntries path entries >>= _) = _) name => ?_⟩
        · refine hsteps.trans ?_
          cases readEntries path entries <;> rfl
        · obtain ⟨rest, hrest, hread⟩ := bind_eq_ok_iff.mp h
          obtain rfl : calls :: rest = read := Except.ok.inj hread
          rw [hafter rest hrest, target.chosen_cons excluded calls rest, List.mem_append,
            List.mem_append, or_left_comm, or_assoc]

/-- **Looking for callers is reading all entries and choosing among them.** -/
theorem callers_eq (target : CallTarget) (archive : Archive) (path : String)
    (excluded : List String) :
    target.callers archive path excluded
      = (readEntries path archive.classes).map fun read =>
          inOrder (target.chosen excluded read) := by
  obtain ⟨after, hsteps, hafter⟩ := steps_visitEntry target path excluded [] archive.classes
  rw [callers, Archive.walk, hsteps]
  cases hread : readEntries path archive.classes with
  | error failure => rfl
  | ok read =>
    refine congrArg Except.ok (inOrder_eq_inOrder fun name => ?_)
    rw [hafter read hread name]
    simp

/-! ## What is found -/

theorem mem_scanned_iff {entry : Entry} :
    entry ∈ archive.classes.filter (fun entry => !endsIn moduleSuffix entry.name) ↔
      entry ∈ archive.entries ∧ IsScanned entry := by
  rw [List.mem_filter, Archive.mem_classes_iff, Bool.not_eq_true', and_assoc, IsScanned]

theorem readEntry_eq_ok_iff {entry : Entry} {calls : ClassCalls} :
    readEntry path entry = .ok calls ↔ ClassCalls.read entry.content = .ok calls :=
  Outcome.during_eq_ok_iff

theorem exists_readEntries_eq_ok_iff (path : String) (archive : Archive) :
    (∃ read, readEntries path archive.classes = .ok read) ↔
      ∀ entry ∈ archive.entries, IsScanned entry →
        ∃ calls, ClassCalls.read entry.content = .ok calls := by
  simp only [readEntries, exists_mapM_eq_ok_iff, mem_scanned_iff, and_imp, readEntry_eq_ok_iff]

/-- Whether the archive has a class of the given name that makes a call to the method. -/
def IsCallerIn (target : CallTarget) (archive : Archive) (name : String) : Prop :=
  ∃ entry ∈ archive.entries, IsScanned entry ∧
    ∃ calls, ClassCalls.read entry.content = .ok calls ∧ calls.name = name ∧ target.IsCaller calls

theorem mem_chosen_readEntries_iff (h : readEntries path archive.classes = .ok read) :
    name ∈ target.chosen excluded read ↔ name ∉ excluded ∧ target.IsCallerIn archive name := by
  have hpartners := mapM_eq_ok_iff.mp h
  rw [mem_chosen_iff]
  refine and_congr_right fun _ => ?_
  constructor
  · rintro ⟨calls, hcalls, hname, hcaller⟩
    obtain ⟨entry, hentry, hread⟩ := exists_of_forall₂_of_mem hpartners hcalls
    obtain ⟨hmem, hscanned⟩ := mem_scanned_iff.mp hentry
    exact ⟨entry, hmem, hscanned, calls, readEntry_eq_ok_iff.mp hread, hname, hcaller⟩
  · rintro ⟨entry, hmem, hscanned, calls, hread, hname, hcaller⟩
    obtain ⟨calls', hcalls', hread'⟩ :=
      exists_of_forall₂_of_mem hpartners.flip (mem_scanned_iff.mpr ⟨hmem, hscanned⟩)
    obtain rfl := Except.ok.inj (hread.symm.trans (readEntry_eq_ok_iff.mp hread'))
    exact ⟨calls, hcalls', hname, hcaller⟩

/-- Whether the entry is the first of those that cannot be read, by the bytes of the names, and the
failure is the one that reading it gives. -/
def IsFirstFailure (archive : Archive) (path : String) (entry : Entry) (failure : Failure) : Prop :=
  (∃ fault, ClassCalls.read entry.content = .error fault ∧
    failure = ⟨.entry path entry.name :: fault.steps, fault.cause⟩) ∧
  ∀ other ∈ archive.entries, IsScanned other →
    (∃ fault, ClassCalls.read other.content = .error fault) →
      Text.bytes entry.name ≤ Text.bytes other.name

theorem exists_isFirstFailure {failure : Failure}
    (h : readEntries path archive.classes = .error failure) :
    ∃ entry ∈ archive.entries, IsScanned entry ∧ IsFirstFailure archive path entry failure := by
  obtain ⟨front, entry, back, hsplit, hfront, herror⟩ := exists_of_mapM_eq_error h
  have hentry : entry ∈ archive.entries ∧ IsScanned entry :=
    mem_scanned_iff.mp (hsplit ▸ List.mem_append_right front List.mem_cons_self)
  refine ⟨entry, hentry.1, hentry.2, ?_, fun other hother hscanned hfails => ?_⟩
  · rw [readEntry] at herror
    cases hread : ClassCalls.read entry.content with
    | ok calls =>
      rw [hread] at herror
      exact nomatch herror
    | error fault =>
      rw [hread] at herror
      exact ⟨fault, rfl, (Except.error.inj herror).symm⟩
  · rw [← Text.le_iff_bytes_le]
    have hpairwise := archive.pairwise_classes.filter fun entry => !endsIn moduleSuffix entry.name
    have hmem := mem_scanned_iff.mpr ⟨hother, hscanned⟩
    rw [hsplit] at hpairwise hmem
    have hbehind := (List.pairwise_cons.mp (List.pairwise_append.mp hpairwise).2.1).1
    rcases List.mem_append.mp hmem with hbefore | hlater
    · -- what stands in front can be read
      obtain ⟨calls, hread⟩ := hfront other hbefore
      obtain ⟨fault, hfault⟩ := hfails
      exact nomatch (readEntry_eq_ok_iff.mp hread).symm.trans hfault
    · rcases List.mem_cons.mp hlater with rfl | hback
      · exact (Text.le_total other.name other.name).elim id id
      · exact hbehind other hback

/-- **The callers of a method are found if every class file can be read, and else the first one that
cannot is reported.**  Classes that are left out are read all the same: to leave out more of them
takes their names away, and changes nothing else. -/
theorem callers_complete_or_first_failure (target : CallTarget) (archive : Archive) (path : String)
    (excluded : List String) :
    ((∃ names, target.callers archive path excluded = .ok names) ↔
      ∀ entry ∈ archive.entries, IsScanned entry →
        ∃ calls, ClassCalls.read entry.content = .ok calls) ∧
    (∀ names, target.callers archive path excluded = .ok names →
      names.Nodup ∧ names.Pairwise (Text.bytes · ≤ Text.bytes ·) ∧
      ∀ name, name ∈ names ↔ name ∉ excluded ∧ target.IsCallerIn archive name) ∧
    (∀ failure, target.callers archive path excluded = .error failure →
      ∃ entry ∈ archive.entries, IsScanned entry ∧ IsFirstFailure archive path entry failure) ∧
    ∀ excluded', excluded ⊆ excluded' →
      target.callers archive path excluded'
        = (target.callers archive path excluded).map (·.filter (· ∉ excluded')) := by
  simp only [callers_eq]
  refine ⟨?_, fun names h => ?_, fun failure h => ?_, fun excluded' hsubset => ?_⟩
  · simp only [map_eq_ok_iff, ← exists_readEntries_eq_ok_iff path archive]
    exact ⟨fun ⟨_, read, hread, _⟩ => ⟨read, hread⟩, fun ⟨read, hread⟩ => ⟨_, read, hread, rfl⟩⟩
  · obtain ⟨read, hread, rfl⟩ := map_eq_ok_iff.mp h
    refine ⟨nodup_inOrder _, (pairwise_inOrder _).imp Text.le_iff_bytes_le.mp, fun name => ?_⟩
    rw [mem_inOrder_iff, mem_chosen_readEntries_iff hread]
  · cases hread : readEntries path archive.classes with
    | ok read =>
      rw [hread] at h
      exact nomatch h
    | error fault =>
      rw [hread] at h
      obtain rfl := Except.error.inj h
      exact exists_isFirstFailure hread
  · cases readEntries path archive.classes with
    | error fault => rfl
    | ok read =>
      refine congrArg Except.ok ?_
      show inOrder (target.chosen excluded' read) = _
      rw [chosen_of_subset hsubset, ← filter_inOrder]

/-- A class file for a class with a name of one letter and a method that calls itself. -/
def callingItself (letter : UInt8) : Bytes :=
  [0xCA, 0xFE, 0xBA, 0xBE, 0x00, 0x00, 0x00, 0x34, 0x00, 0x08, 0x01, 0x00, 0x01, letter, 0x07, 0x00,
    0x01, 0x01, 0x00, 0x04, 0x43, 0x6F, 0x64, 0x65, 0x01, 0x00, 0x03, 0x72, 0x75, 0x6E, 0x01, 0x00,
    0x03, 0x28, 0x29, 0x56, 0x0C, 0x00, 0x04, 0x00, 0x05, 0x0A, 0x00, 0x02, 0x00, 0x06, 0x00, 0x01,
    0x00, 0x02, 0x00, 0x00, 0x00, 0x00, 0x00, 0x00, 0x00, 0x01, 0x00, 0x01, 0x00, 0x04, 0x00, 0x05,
    0x00, 0x01, 0x00, 0x03, 0x00, 0x00, 0x00, 0x11, 0x00, 0x01, 0x00, 0x01, 0x00, 0x00, 0x00, 0x05,
    0x2A, 0xB6, 0x00, 0x07, 0xB1, 0x00, 0x00, 0x00, 0x00, 0x00, 0x00]

/-- What is read from it. -/
def madeByItself (name : String) : ClassCalls :=
  ⟨name, [⟨"run", "()V", [⟨1, .virtual, name, "run", "()V"⟩]⟩]⟩

/-- The method that such a class calls. -/
def run : CallTarget := ⟨"run", "()V"⟩

/-- Two such classes, and a description of a module that cannot be read. -/
def twoCallers : Archive :=
  ⟨[⟨"b.class", callingItself 0x42⟩, ⟨"module-info.class", []⟩, ⟨"a.class", callingItself 0x41⟩]⟩

/-- One such class between two class files that cannot be read. -/
def twoBroken : Archive :=
  ⟨[⟨"z.class", []⟩, ⟨"b.class", callingItself 0x42⟩, ⟨"module-info.class", []⟩, ⟨"x.class", []⟩]⟩

theorem read_callingItself :
    ClassCalls.read (callingItself 0x41) = .ok (madeByItself "A") ∧
      ClassCalls.read (callingItself 0x42) = .ok (madeByItself "B") := by
  constructor
  · cbv
  · cbv

theorem exists_read_nil_eq_error : ∃ fault, ClassCalls.read [] = .error fault := by
  have hdocument : ClassFile.Document.read [] = .error (.numberCut 0 0) := by cbv
  have hskim : ClassCalls.skim [] = .error ⟨[], .classFile .outOfBounds⟩ := by cbv
  rw [ClassCalls.read, hdocument]
  dsimp only
  split
  · exact ⟨_, congrArg _ hskim⟩
  · exact ⟨_, rfl⟩

theorem reads_twoCallers : ∀ entry ∈ twoCallers.entries, IsScanned entry →
    ∃ calls, ClassCalls.read entry.content = .ok calls := by
  simp only [twoCallers, List.forall_mem_cons]
  exact ⟨fun _ => ⟨_, read_callingItself.2⟩, fun h => absurd h (by decide),
    fun _ => ⟨_, read_callingItself.1⟩, nofun⟩

theorem isCallerIn_twoCallers :
    run.IsCallerIn twoCallers "A" ∧ run.IsCallerIn twoCallers "B" := by
  have hcaller : ∀ name, run.IsCaller (madeByItself name) := fun name =>
    ⟨_, List.mem_cons_self, _, List.mem_cons_self, rfl, rfl, rfl⟩
  constructor
  · exact ⟨⟨"a.class", callingItself 0x41⟩, .tail _ (.tail _ (.head _)), by decide, _,
      read_callingItself.1, rfl, hcaller "A"⟩
  · exact ⟨⟨"b.class", callingItself 0x42⟩, .head _, by decide, _,
      read_callingItself.2, rfl, hcaller "B"⟩

theorem eq_of_isFirstFailure_twoBroken {entry : Entry} {failure : Failure}
    (hentry : entry ∈ twoBroken.entries) (hscanned : IsScanned entry)
    (h : IsFirstFailure twoBroken "in.jar" entry failure) : entry = ⟨"x.class", []⟩ := by
  obtain ⟨⟨fault, hfault, -⟩, hfirst⟩ := h
  simp only [twoBroken, List.mem_cons, List.not_mem_nil, or_false] at hentry
  rcases hentry with rfl | rfl | rfl | rfl
  · have hle := hfirst ⟨"x.class", []⟩ (.tail _ (.tail _ (.tail _ (.head _)))) (by decide)
      exists_read_nil_eq_error
    have hnot : Text.le "z.class" "x.class" = false := by cbv
    cases hnot.symm.trans (Text.le_iff_bytes_le.mpr hle)
  · cases read_callingItself.2.symm.trans hfault
  · exact absurd hscanned (by decide)
  · rfl

/-- Both classes are found, one of them can be left out, and of two files that cannot be read the
one with the lesser name is reported. -/
theorem callers_complete_or_first_failure_two :
    (∃ names, run.callers twoCallers "in.jar" [] = .ok names ∧ "A" ∈ names ∧ "B" ∈ names) ∧
    (∃ names, run.callers twoCallers "in.jar" ["B"] = .ok names ∧ "A" ∈ names ∧ "B" ∉ names) ∧
    ∃ failure, run.callers twoBroken "in.jar" [] = .error failure ∧
      IsFirstFailure twoBroken "in.jar" ⟨"x.class", []⟩ failure := by
  obtain ⟨hok, hnames, -, hfewer⟩ :=
    callers_complete_or_first_failure run twoCallers "in.jar" []
  obtain ⟨names, hcallers⟩ := hok.mpr reads_twoCallers
  obtain ⟨-, -, hmem⟩ := hnames names hcallers
  have hA : "A" ∈ names := (hmem "A").mpr ⟨List.not_mem_nil, isCallerIn_twoCallers.1⟩
  have hB : "B" ∈ names := (hmem "B").mpr ⟨List.not_mem_nil, isCallerIn_twoCallers.2⟩
  refine ⟨⟨names, hcallers, hA, hB⟩, ⟨names.filter (· ∉ ["B"]), ?_, ?_, ?_⟩, ?_⟩
  · rw [hfewer ["B"] (List.nil_subset _), hcallers]
    rfl
  · exact List.mem_filter.mpr ⟨hA, by decide⟩
  · exact fun h => absurd (List.mem_filter.mp h).2 (by decide)
  · obtain ⟨hok', -, hfirst, -⟩ := callers_complete_or_first_failure run twoBroken "in.jar" []
    cases hbroken : run.callers twoBroken "in.jar" [] with
    | ok names =>
      obtain ⟨fault, hfault⟩ := exists_read_nil_eq_error
      obtain ⟨calls, hcalls⟩ := hok'.mp ⟨names, hbroken⟩ ⟨"x.class", []⟩
        (.tail _ (.tail _ (.tail _ (.head _)))) (by decide)
      exact nomatch hcalls.symm.trans hfault
    | error failure =>
      obtain ⟨entry, hentry, hscanned, hfailure⟩ := hfirst failure hbroken
      obtain rfl := eq_of_isFirstFailure_twoBroken hentry hscanned hfailure
      exact ⟨failure, rfl, hfailure⟩

end AccessTransformer.CallTarget
