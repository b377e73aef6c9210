import AccessTransformer.CommandLine.Option
import Mathlib.Data.List.Basic
import Mathlib.Tactic.SplitIfs

/-!
# Flags and options as they are spelled

A flag is a word of its own.  The value of an option is the word behind it, or stands in the same
word behind an equals sign.  Parts like these give settings if a form knows them all: then there is
nothing that has to be refused, and what a word is for can be told by looking at it.

* `Part.Fits`: the flags and options that a form knows.
* `Settings.Gives`: the settings that parts give; `Gives.put_eq_ok_iff`, `Gives.raise_eq_ok_iff` for
  one more part.
* `Settings.Spells`: the arguments that parts are spelled in.
* `Settings.look_longWord`, `Settings.eq_longWord_of_look`: what a word looks like, and how it is
  spelled.
-/

namespace AccessTransformer.CommandLine

/-! ## Spelling -/

/-- A flag, an option with its value behind it, or an option with its value behind an equals
sign. -/
inductive Part where
  | flag (name : String)
  | option (name value : String)
  | joined (name value : String)
  deriving DecidableEq, Repr

/-- How an argument that starts with two dashes is spelled. -/
def longWord (name : String) (value : Option String) : String :=
  "--" ++ name ++ (value.map ("=" ++ ·)).getD ""

/-- Whether an argument looks like no option: there is no dash in front, or nothing else. -/
def IsWord (argument : String) : Prop :=
  ∀ rest, argument.toList = '-' :: rest → rest = []

/-- Whether the names in a form can be told from what stands around them, and no flag is the one for
help. -/
structure Form.IsPlain (form : Form) : Prop where
  ne_empty : ∀ name ∈ form.flags ++ form.options.map (·.1), name ≠ ""
  equals_notMem : ∀ name ∈ form.flags ++ form.options.map (·.1), '=' ∉ name.toList
  help_notMem : "help" ∉ form.flags

theorem Form.IsPlain.of_flag {form : Form} {name : String} (h : form.IsPlain)
    (hname : name ∈ form.flags) : name ≠ "" ∧ '=' ∉ name.toList :=
  ⟨h.ne_empty name (List.mem_append_left _ hname),
    h.equals_notMem name (List.mem_append_left _ hname)⟩

theorem Form.IsPlain.of_lookup {form : Form} {name : String} {taking : Taking} (h : form.IsPlain)
    (hknown : form.options.lookup name = some taking) : name ≠ "" ∧ '=' ∉ name.toList := by
  have hmem : name ∈ form.options.map (·.1) := by
    obtain ⟨before, behind, hoptions, -⟩ := List.lookup_eq_some_iff.mp hknown
    rw [hoptions]
    simp
  exact ⟨h.ne_empty name (List.mem_append_right _ hmem),
    h.equals_notMem name (List.mem_append_right _ hmem)⟩

namespace Part

/-- The words of a part. -/
def words : Part → List String
  | flag name => [longWord name none]
  | option name value => [longWord name none, value]
  | joined name value => [longWord name (some value)]

/-- The flag that a part raises. -/
def flag? : Part → Option String
  | flag name => some name
  | option _ _ | joined _ _ => none

/-- The option that a part gives a value, with the value. -/
def value? : Part → Option (String × String)
  | flag _ => none
  | option name value | joined name value => some (name, value)

/-- Whether a form knows a part, and its option takes the value.  A value that looks like an option
can only stand behind an equals sign, or behind an option that takes any argument at all. -/
def Fits (form : Form) : Part → Prop
  | flag name => name ∈ form.flags ∧ form.options.lookup name = none
  | option name value => ∃ taking, form.options.lookup name = some taking ∧
      (taking = .path → value ≠ "") ∧ (taking = .arguments ∨ IsWord value)
  | joined name value => ∃ taking, form.options.lookup name = some taking ∧
      (taking = .path → value ≠ "")

variable {form : Form} {name value : String} {taking : Taking}

theorem fits_option_iff (hknown : form.options.lookup name = some taking) :
    (option name value).Fits form ↔
      (taking = .path → value ≠ "") ∧ (taking = .arguments ∨ IsWord value) := by
  simp only [Fits, hknown, Option.some.injEq, exists_eq_left']

theorem fits_joined_iff (hknown : form.options.lookup name = some taking) :
    (joined name value).Fits form ↔ (taking = .path → value ≠ "") := by
  simp only [Fits, hknown, Option.some.injEq, exists_eq_left']

end Part

namespace Settings

/-- The settings that parts give. -/
def ofParts (parts : List Part) : Settings where
  flags := parts.filterMap Part.flag?
  values := parts.filterMap Part.value?

/-- Whether no option has more values than it may have. -/
def IsSingle (form : Form) (settings : Settings) : Prop :=
  ∀ name taking, form.options.lookup name = some taking → ¬taking.Repeats →
    (settings.all name).length ≤ 1

/-- Whether parts are ones that a form takes, and settings those that the parts give: no option has
more values than it may have, and no flag is raised twice. -/
structure Gives (form : Form) (parts : List Part) (settings : Settings) : Prop where
  settings_eq : settings = ofParts parts
  fits : ∀ part ∈ parts, part.Fits form
  isSingle : settings.IsSingle form
  nodup_flags : settings.flags.Nodup

/-- Whether arguments are the words of some parts that a form takes, and settings those that the
parts give. -/
structure Spells (form : Form) (parts : List Part) (settings : Settings)
    (arguments : List String) : Prop extends Gives form parts settings where
  arguments_eq : arguments = parts.flatMap Part.words ∨
    arguments = parts.flatMap Part.words ++ ["--"]

end Settings

/-! ## One more part -/

namespace Settings

variable {form : Form} {parts more : List Part} {settings after : Settings}
  {argument name text : String} {taking : Taking}

theorem all_append (settings : Settings) (name text other : String) :
    all { settings with values := settings.values ++ [(name, text)] } other
      = settings.all other ++ if name = other then [text] else [] := by
  by_cases heq : name = other
  · simp [all, List.filter_append, heq]
  · simp [all, List.filter_append, heq]

/-- One more value is one for the option that it is given to. -/
theorem IsSingle.append_iff (h : settings.IsSingle form)
    (hknown : form.options.lookup name = some taking) (text : String) :
    IsSingle form { settings with values := settings.values ++ [(name, text)] } ↔
      (¬taking.Repeats → settings.all name = []) := by
  constructor
  · intro hafter honce
    have hlength := hafter name taking hknown honce
    rw [all_append, if_pos rfl, List.length_append] at hlength
    exact List.eq_nil_of_length_eq_zero (Nat.le_zero.mp (Nat.le_of_succ_le_succ hlength))
  · intro hnone other taking' hlookup honce
    rw [all_append]
    split_ifs with heq
    · subst heq
      obtain rfl : taking = taking' := Option.some.inj (hknown.symm.trans hlookup)
      rw [hnone honce]
      exact Nat.le_refl 1
    · rw [List.append_nil]
      exact h other taking' hlookup honce

namespace Gives

/-- The parts in front are given as well. -/
theorem of_append (h : Gives form (parts ++ more) settings) : Gives form parts (ofParts parts) := by
  have hsettings := h.settings_eq
  simp only [ofParts, List.filterMap_append] at hsettings
  refine ⟨rfl, fun part hpart => h.fits part (List.mem_append_left _ hpart),
    fun name taking hknown honce => ?_, ?_⟩
  · refine Nat.le_trans ?_ (h.isSingle name taking hknown honce)
    rw [hsettings, all, all, List.length_map, List.length_map, List.filter_append,
      List.length_append]
    exact Nat.le_add_right _ _
  · have hnodup := h.nodup_flags
    rw [hsettings] at hnodup
    exact hnodup.sublist (List.sublist_append_left _ _)

/-- A value is taken exactly if the parts may go on with one for it. -/
theorem put_eq_ok_iff (h : Gives form parts settings) (part : Part)
    (hknown : form.options.lookup name = some taking) (hvalue : part.value? = some (name, text))
    (hfits : part.Fits form ↔ (taking = .path → text ≠ "")) :
    settings.put name taking text = .ok after ↔ Gives form (parts ++ [part]) after := by
  have hflag : part.flag? = none := by
    cases part with
    | flag name => cases hvalue
    | option name value => rfl
    | joined name value => rfl
  have hparts : ofParts (parts ++ [part])
      = { settings with values := settings.values ++ [(name, text)] } := by
    rw [h.settings_eq]
    simp [ofParts, hvalue, hflag]
  have hsingle := h.isSingle.append_iff hknown text
  unfold Settings.put
  constructor
  · intro hput
    split_ifs at hput with htwice hempty
    obtain rfl := Except.ok.inj hput
    rw [not_and, not_not] at htwice
    rw [not_and] at hempty
    refine ⟨hparts.symm, List.forall_mem_append.mpr ⟨h.fits, ?_⟩, hsingle.mpr htwice,
      h.nodup_flags⟩
    rw [List.forall_mem_singleton]
    exact hfits.mpr hempty
  · intro hafter
    have hadded := hafter.isSingle
    rw [hafter.settings_eq, hparts] at hadded ⊢
    have hpart := hfits.mp (hafter.fits part (by simp))
    rw [if_neg (fun htwice => htwice.2 (hsingle.mp hadded htwice.1)),
      if_neg (fun hempty => hpart hempty.1 hempty.2)]

/-- A flag is raised exactly if the parts may go on with it. -/
theorem raise_eq_ok_iff (h : Gives form parts settings) (hfits : (Part.flag name).Fits form) :
    settings.raise name = .ok after ↔ Gives form (parts ++ [.flag name]) after := by
  have hparts : ofParts (parts ++ [.flag name])
      = { settings with flags := settings.flags ++ [name] } := by
    rw [h.settings_eq]
    simp [ofParts, Part.flag?, Part.value?]
  have hnodup : (settings.flags ++ [name]).Nodup ↔ name ∉ settings.flags := by
    rw [List.perm_append_comm.nodup_iff, List.singleton_append, List.nodup_cons]
    exact and_iff_left h.nodup_flags
  unfold Settings.raise
  constructor
  · intro hraise
    split_ifs at hraise with htwice
    obtain rfl := Except.ok.inj hraise
    refine ⟨hparts.symm, List.forall_mem_append.mpr ⟨h.fits, ?_⟩, h.isSingle, hnodup.mpr htwice⟩
    exact List.forall_mem_singleton.mpr hfits
  · intro hafter
    have hflags := hafter.nodup_flags
    rw [hafter.settings_eq, hparts] at hflags ⊢
    rw [if_neg (hnodup.mp hflags)]

end Gives

/-! ## What arguments look like -/

theorem splitValue_spells (text : List Char) :
    text = (splitValue text).1.toList ++
      ((splitValue text).2.map fun value => '=' :: value.toList).getD [] := by
  have hsplit := List.takeWhile_append_dropWhile (p := (· ≠ '=')) (l := text)
  unfold splitValue
  dsimp only
  rw [String.toList_ofList]
  cases hrest : text.dropWhile (· ≠ '=') with
  | nil =>
    rw [hrest] at hsplit
    exact hsplit.symm
  | cons c value =>
    have hc : c = '=' := by
      have hhead := List.head?_dropWhile_not (· ≠ '=') text
      rw [hrest] at hhead
      simpa using hhead
    rw [hrest, hc] at hsplit
    simpa using hsplit.symm

/-- An argument that looks like an option is spelled like it. -/
theorem eq_longWord_of_look {value : Option String} (h : look argument = .long name value) :
    argument = longWord name value := by
  unfold look at h
  split at h
  · cases h
  · rename_i text hnot htext
    obtain ⟨rfl, rfl⟩ := Look.long.inj h
    rw [← String.toList_inj, htext, longWord]
    conv_lhs => rw [splitValue_spells text]
    cases (splitValue text).2 with
    | none => simp
    | some value => simp
  · cases h
  · cases h

/-- A flag or an option is looked at as it is spelled. -/
theorem look_longWord (hname : name ≠ "") (hequals : '=' ∉ name.toList) (value : Option String) :
    look (longWord name value) = .long name value := by
  have hplain : ∀ c ∈ name.toList, decide (c ≠ '=') = true := fun c hc =>
    decide_eq_true fun heq : c = '=' => hequals (heq ▸ hc)
  have hsplit : splitValue
      (name.toList ++ (value.map fun value => '=' :: value.toList).getD []) = (name, value) := by
    unfold splitValue
    rw [List.takeWhile_append_of_pos hplain, List.dropWhile_append_of_pos hplain]
    cases value <;> simp
  have htext : (longWord name value).toList
      = '-' :: '-' :: (name.toList ++ (value.map fun value => '=' :: value.toList).getD []) := by
    cases value <;> simp [longWord]
  have hne : name.toList ++ (value.map fun value => '=' :: value.toList).getD [] ≠ [] :=
    List.append_ne_nil_of_left_ne_nil (fun hnil => hname (String.toList_inj.mp hnil)) _
  obtain ⟨c, text, hcons⟩ := List.exists_cons_of_ne_nil hne
  unfold look
  rw [htext, hcons]
  show Look.long (splitValue (c :: text)).1 (splitValue (c :: text)).2 = _
  rw [← hcons, hsplit]

theorem look_eq_word_iff : look argument = .word ↔ IsWord argument := by
  unfold look IsWord
  split
  · rename_i htext
    rw [htext]
    simp
  · rename_i text hnonempty htext
    rw [htext]
    simp
  · rename_i letter text hlong htext
    rw [htext]
    simp
  · rename_i hshort
    simp only [true_iff]
    intro rest htext
    cases rest with
    | nil => rfl
    | cons letter rest => exact absurd htext (hshort letter rest)

theorem eq_of_look_escape (h : look argument = .escape) : argument = "--" := by
  unfold look at h
  split at h
  · rename_i htext
    exact String.toList_inj.mp htext
  · cases h
  · cases h
  · cases h

end Settings

end AccessTransformer.CommandLine
