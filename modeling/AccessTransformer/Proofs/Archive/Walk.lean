import AccessTransformer.CallTargets
import AccessTransformer.Proofs.Archive
import AccessTransformer.Proofs.Text.Order
import Mathlib

/-!
# Going through the classes of an archive

Whoever goes through an archive is shown its class files by the bytes of their names, and no more
of them after the first failure.  Going through them by name, each name once, is the same as going
through the entries, since names are what tells entries apart; and so the way in which an archive
was put together cannot be seen from inside.

What was shown can be told by keeping it: `recording` is a step that keeps every entry that it is
called with, and does what another step does.

* `steps_cases`: steps go through all entries, or up to the first failure.
* `classes_isRoute`, `map_lookup?_classNames`: the classes in order, and by name.
* `walk_goes_and_eq_of_perm`: what is shown, what comes of it, and that the order of the entries in
  the archive changes neither.
-/

namespace AccessTransformer.Archive

variable {σ ε : Type} {step : σ → Entry → σ × Except ε Unit} {state middle after : σ}
  {entry : Entry} {entries behind order : List Entry} {archive archive' : Archive}

/-! ## Steps -/

/-- Whether the steps for the entries succeed one after the other, and lead from the first state to
the second. -/
inductive Succeeds (step : σ → Entry → σ × Except ε Unit) : σ → List Entry → σ → Prop where
  | nil (state : σ) : Succeeds step state [] state
  | cons {state middle after : σ} {entry : Entry} {entries : List Entry}
      (hstep : step state entry = (middle, .ok ())) (hrest : Succeeds step middle entries after) :
      Succeeds step state (entry :: entries) after

/-- What comes of the steps for entries in order: the entries that are shown, the state in the end,
and the number of entries or the first failure. -/
inductive Goes (step : σ → Entry → σ × Except ε Unit) (state : σ) (order : List Entry) :
    List Entry → σ → Except ε Nat → Prop where
  | through {after : σ} (hall : Succeeds step state order after) :
      Goes step state order order after (.ok order.length)
  | upTo {before behind : List Entry} {entry : Entry} {middle after : σ} {failure : ε}
      (hsplit : order = before ++ entry :: behind) (hbefore : Succeeds step state before middle)
      (hfails : step middle entry = (after, .error failure)) :
      Goes step state order (before ++ [entry]) after (.error failure)

/-- The step that also keeps the entries with which it was called. -/
def recording (step : σ → Entry → σ × Except ε Unit) (state : List Entry × σ) (entry : Entry) :
    (List Entry × σ) × Except ε Unit :=
  ((state.1 ++ [entry], (step state.2 entry).1), (step state.2 entry).2)

/-- Steps that succeed can be taken before others. -/
theorem steps_append (h : Succeeds step state entries middle) :
    steps step state (entries ++ behind) = steps step middle behind := by
  induction h with
  | nil state => rfl
  | cons hstep _ ih =>
    rw [List.cons_append, steps, hstep]
    exact ih

theorem steps_eq_ok (h : Succeeds step state entries after) :
    steps step state entries = (after, .ok ()) := by
  have happend : steps step state (entries ++ []) = steps step after [] := steps_append h
  rwa [List.append_nil] at happend

/-- Entries behind a failure are not looked at. -/
theorem steps_eq_error {failure : ε} (h : Succeeds step state entries middle)
    (hfails : step middle entry = (after, .error failure)) :
    steps step state (entries ++ entry :: behind) = (after, .error failure) := by
  rw [steps_append h, steps, hfails]

/-- **Steps go through all entries, or up to the first that fails.** -/
theorem steps_cases (step : σ → Entry → σ × Except ε Unit) (state : σ) (entries : List Entry) :
    (∃ after, Succeeds step state entries after) ∨
      ∃ before entry behind middle after failure, entries = before ++ entry :: behind ∧
        Succeeds step state before middle ∧ step middle entry = (after, .error failure) := by
  induction entries generalizing state with
  | nil => exact Or.inl ⟨state, .nil state⟩
  | cons first entries ih =>
    rcases hstep : step state first with ⟨next, failure | ⟨⟩⟩
    · exact Or.inr ⟨[], first, entries, state, next, failure, rfl, .nil state, hstep⟩
    · rcases ih next with ⟨after, hall⟩ |
        ⟨before, entry, behind, middle, after, failure, rfl, hbefore, hfails⟩
      · exact Or.inl ⟨after, .cons hstep hall⟩
      · exact Or.inr ⟨first :: before, entry, behind, middle, after, failure, rfl,
          .cons hstep hbefore, hfails⟩

/-- A recording step keeps just the entries that it was shown. -/
theorem Succeeds.recording (h : Succeeds step state entries after) (seen : List Entry) :
    Succeeds (recording step) (seen, state) entries (seen ++ entries, after) := by
  induction h generalizing seen with
  | nil state =>
    rw [List.append_nil]
    exact .nil _
  | @cons state middle _ entry _ hstep _ ih =>
    have hrecord : Archive.recording step (seen, state) entry
        = ((seen ++ [entry], middle), .ok ()) := by
      rw [Archive.recording, hstep]
    have hrest := ih (seen ++ [entry])
    rw [← List.append_cons] at hrest
    exact .cons hrecord hrest

/-- **What is shown by going through an archive, and what comes of it.** -/
theorem exists_goes (step : σ → Entry → σ × Except ε Unit) (state : σ) (archive : Archive) :
    ∃ shown after result, Goes step state archive.classes shown after result ∧
      archive.walk step state = (after, result) ∧
      archive.walk (recording step) ([], state) = ((shown, after), result) := by
  rcases steps_cases step state archive.classes with ⟨after, hall⟩ |
    ⟨before, entry, behind, middle, after, failure, hsplit, hbefore, hfails⟩
  · refine ⟨archive.classes, after, .ok archive.classes.length, .through hall, ?_, ?_⟩
    · rw [walk, steps_eq_ok hall]
    · rw [walk, steps_eq_ok (hall.recording [])]
      rfl
  · have hrecord : recording step (before, middle) entry
        = ((before ++ [entry], after), .error failure) := by
      rw [recording, hfails]
    refine ⟨before ++ [entry], after, .error failure, .upTo hsplit hbefore hfails, ?_, ?_⟩
    · rw [walk, hsplit, steps_eq_error hbefore hfails]
    · rw [walk, hsplit, steps_eq_error (hbefore.recording []) hrecord]

/-! ## The order of the classes -/

/-- Whether the name of an entry is that of a directory. -/
def Entry.IsDirectory (entry : Entry) : Prop :=
  ∃ front, entry.name = front ++ "/" ∨ entry.name = front ++ "\\"

/-- Whether an entry is a class file and no directory. -/
def Entry.IsClassFile (entry : Entry) : Prop :=
  (∃ front, entry.name = front ++ ".class") ∧ ¬entry.IsDirectory

theorem Entry.isClass_eq_true_iff : entry.isClass = true ↔ entry.IsClassFile := by
  rw [Entry.isClass, endsIn, List.isSuffixOf_iff_suffix]
  constructor
  · rintro ⟨front, hname⟩
    have hname : entry.name = String.ofList front ++ ".class" := by
      rw [← String.toList_inj, ← hname, String.toList_append, String.toList_ofList]
      rfl
    refine ⟨⟨_, hname⟩, ?_⟩
    -- the last character of a class file's name is no slash
    rintro ⟨other, hother | hother⟩
    · have hlast := congrArg (·.toList.getLast?) (hother.symm.trans hname)
      simp [String.toList_append] at hlast
    · have hlast := congrArg (·.toList.getLast?) (hother.symm.trans hname)
      simp [String.toList_append] at hlast
  · rintro ⟨⟨front, hname⟩, -⟩
    refine ⟨front.toList, ?_⟩
    rw [hname, String.toList_append]
    rfl

/-- Whether these are the class files of an archive, in strictly increasing order of the bytes of
their names. -/
structure IsRoute (archive : Archive) (order : List Entry) : Prop where
  mem_iff : ∀ entry, entry ∈ order ↔ entry ∈ archive.entries ∧ entry.IsClassFile
  increasing : order.Pairwise (Text.bytes ·.name < Text.bytes ·.name)

/-- The names of the class files in order, each once. -/
def classNames (archive : Archive) : List String :=
  (Text.sort ((archive.entries.filter Entry.isClass).map (·.name))).eraseReps

/-- The entry of the given name. -/
def lookup? (archive : Archive) (name : String) : Option Entry :=
  archive.entries.find? (·.name = name)

/-- Where names are unique, the entry of a name is the one that has it. -/
theorem lookup?_name (hunique : (archive.entries.map (·.name)).Nodup)
    (hentry : entry ∈ archive.entries) : archive.lookup? entry.name = some entry := by
  rw [lookup?]
  cases hfind : archive.entries.find? (·.name = entry.name) with
  | none => exact absurd (List.find?_eq_none.mp hfind entry hentry) (by simp)
  | some found =>
    have hname : found.name = entry.name := by simpa using List.find?_some hfind
    rw [List.inj_on_of_nodup_map hunique (List.mem_of_find?_eq_some hfind) hentry hname]

theorem nodup_names_classes (hunique : (archive.entries.map (·.name)).Nodup) :
    (archive.classes.map (·.name)).Nodup := by
  have hperm : archive.classes.Perm (archive.entries.filter Entry.isClass) :=
    List.mergeSort_perm _ _
  rw [(hperm.map _).nodup_iff]
  exact hunique.sublist (List.filter_sublist.map _)

/-- **The classes of an archive are its class files in strictly increasing order.** -/
theorem classes_isRoute (hunique : (archive.entries.map (·.name)).Nodup) :
    archive.IsRoute archive.classes where
  mem_iff := by
    intro entry
    rw [mem_classes_iff, Entry.isClass_eq_true_iff]
  increasing := by
    have hne : archive.classes.Pairwise (·.name ≠ ·.name) :=
      List.pairwise_map.mp (nodup_names_classes hunique)
    refine (archive.pairwise_classes.and hne).imp fun {a b} h => ?_
    have hle := Text.le_iff_bytes_le.mp h.1
    exact Std.lt_of_le_of_ne hle fun heq => h.2 (Text.bytes_inj.mp heq)

/-- **Looking up the names of the class files, put in order and without repetitions, gives the
classes.** -/
theorem map_lookup?_classNames (hunique : (archive.entries.map (·.name)).Nodup) :
    archive.classNames.map archive.lookup? = archive.classes.map some := by
  have hnames : archive.classes.map (·.name) = archive.classNames := by
    refine Text.eq_eraseReps_sort (nodup_names_classes hunique) ?_ fun name => ?_
    · exact List.pairwise_map.mpr archive.pairwise_classes
    · exact ((List.mergeSort_perm _ _).map _).mem_iff
  rw [← hnames, List.map_map]
  refine List.map_congr_left fun entry hentry => ?_
  exact lookup?_name hunique (mem_classes_iff.mp hentry).1

/-- **The classes do not tell in which order the archive holds its entries.** -/
theorem classes_eq_of_perm (hunique : (archive.entries.map (·.name)).Nodup)
    (hperm : archive.entries.Perm archive'.entries) : archive.classes = archive'.classes := by
  have hclasses : archive.classes.Perm archive'.classes :=
    (List.mergeSort_perm _ _).trans
      ((hperm.filter _).trans (List.mergeSort_perm _ _).symm)
  refine List.Perm.eq_of_pairwise (fun a b ha hb hle hge => ?_) archive.pairwise_classes
    archive'.pairwise_classes hclasses
  have hb : b ∈ archive.classes := hclasses.mem_iff.mpr hb
  exact List.inj_on_of_nodup_map (nodup_names_classes hunique) ha hb (Text.le_antisymm hle hge)

/-! ## What is shown -/

/-- **Every archive is gone through by the names of its class files, whatever the steps do.**  The
classes have a route, on which every class file of the archive comes once, in strictly increasing
order of the bytes of the names, and which is what their names lead to.  Steps along the route are
called with each entry up to the first failure and with none behind it; if none fails, the number of
class files is given back, and otherwise the first failure.  An archive with the same entries in
another order shows the same and gives the same, and so it has the same graph and the same callers
of a method. -/
theorem walk_goes_and_eq_of_perm (hunique : (archive.entries.map (·.name)).Nodup) :
    (∃ order, archive.IsRoute order ∧ archive.classNames.map archive.lookup? = order.map some ∧
      ∀ {σ ε : Type} (step : σ → Entry → σ × Except ε Unit) (state : σ),
        ∃ shown after result, Goes step state order shown after result ∧
          archive.walk step state = (after, result) ∧
          archive.walk (recording step) ([], state) = ((shown, after), result)) ∧
    ∀ archive' : Archive, archive.entries.Perm archive'.entries →
      (∀ {σ ε : Type} (step : σ → Entry → σ × Except ε Unit) (state : σ),
        archive'.walk step state = archive.walk step state) ∧
      (∀ path, archive'.classGraph path = archive.classGraph path) ∧
      ∀ (target : CallTarget) path excluded,
        target.callers archive' path excluded = target.callers archive path excluded := by
  refine ⟨⟨archive.classes, classes_isRoute hunique, map_lookup?_classNames hunique,
    fun step state => exists_goes step state archive⟩, fun archive' hperm => ?_⟩
  have hwalk : ∀ {σ ε : Type} (step : σ → Entry → σ × Except ε Unit) (state : σ),
      archive'.walk step state = archive.walk step state := by
    intro σ ε step state
    rw [walk, walk, classes_eq_of_perm hunique hperm]
  refine ⟨hwalk, fun path => ?_, fun target path excluded => ?_⟩
  · rw [classGraph, classGraph, hwalk]
  · rw [CallTarget.callers, CallTarget.callers, hwalk]

/-- Three class files in order, and a directory and a text behind them. -/
def gathered : Archive :=
  ⟨[⟨"a/b.class", [1]⟩, ⟨"a/c.class", [2]⟩, ⟨"b.class", [3]⟩, ⟨"a/", []⟩, ⟨"a/b.class.txt", [4]⟩]⟩

/-- The same entries in another order. -/
def scattered : Archive :=
  ⟨[⟨"b.class", [3]⟩, ⟨"a/", []⟩, ⟨"a/c.class", [2]⟩, ⟨"a/b.class.txt", [4]⟩, ⟨"a/b.class", [1]⟩]⟩

/-- A step that counts entries and fails at the content `2`. -/
def stopAtTwo (count : Nat) (entry : Entry) : Nat × Except String Unit :=
  if entry.content = [2] then (count, .error entry.name) else (count + 1, .ok ())

theorem walk_goes_and_eq_of_perm_stopAtTwo :
    (gathered.entries.map (·.name)).Nodup ∧ gathered.entries.Perm scattered.entries ∧
      (∃ order, gathered.IsRoute order) ∧
      scattered.walk (recording stopAtTwo) ([], 0)
        = (([⟨"a/b.class", [1]⟩, ⟨"a/c.class", [2]⟩], 1), .error "a/c.class") := by
  have hunique : (gathered.entries.map (·.name)).Nodup := by decide
  have hperm : gathered.entries.Perm scattered.entries := by decide
  have hstopped : gathered.walk (recording stopAtTwo) ([], 0)
      = (([⟨"a/b.class", [1]⟩, ⟨"a/c.class", [2]⟩], 1), .error "a/c.class") := by cbv
  obtain ⟨⟨order, hroute, -⟩, hsame⟩ := walk_goes_and_eq_of_perm hunique
  exact ⟨hunique, hperm, ⟨order, hroute⟩, ((hsame scattered hperm).1 _ _).trans hstopped⟩

end AccessTransformer.Archive
