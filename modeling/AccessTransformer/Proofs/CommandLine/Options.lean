import AccessTransformer.Proofs.CommandLine.Parts
import AccessTransformer.Proofs.Outcomes

/-!
# Arguments that are read

Arguments that are read without a fault are a row of flags and options that the form knows, with
two dashes behind them or not, and the settings are those flags and the values of those options in
order.  No word is left out, and none counts twice: what looks like an option is the value of
another one where that one takes any argument at all.  In turn, every such row is read without a
fault, and so arguments give settings in one way at most.

While the arguments are read, the last option may still wait for its value, or for being settled.
The words up to there are those of the parts that are settled, and of the option that is not.

* `Reading.Follows`: what a reading is of the words before it, and `Follows.long`, `Follows.await`
  for one more word.
* `Gives.read_eq_ok`: parts that a form takes are read, whatever is to be settled before them.
* `Settings.ofArguments_eq_ok_iff`: the arguments that settings come from.
-/

namespace AccessTransformer.CommandLine

namespace Settings

variable {form : Form} {parts more : List Part} {taken arguments : List String}
  {reading : Reading} {settings after : Settings} {argument name text : String} {taking : Taking}

/-! ## Readings -/

/-- The words of an option that is not settled yet. -/
def Pending.words (pending : Pending) : List String :=
  longWord pending.name none :: pending.value.toList

/-- Whether a reading is what the given words come to: those of the parts that are settled, and
then those of an option that is not. -/
structure Reading.Follows (form : Form) (parts : List Part) (reading : Reading)
    (taken : List String) : Prop where
  gives : Gives form parts reading.settings
  words_eq : taken = parts.flatMap Part.words ++ (reading.pending.map Pending.words).getD []
  pending_known : ∀ pending, reading.pending = some pending →
    form.options.lookup pending.name = some pending.taking
  pending_word : ∀ pending, reading.pending = some pending → ∀ value ∈ pending.value,
    pending.taking = .arguments ∨ IsWord value

namespace Reading.Follows

/-- The words stay the same when an option is settled. -/
theorem settle (h : reading.Follows form parts taken)
    (hsettle : reading.settings.settle reading.pending = .ok after) :
    ∃ parts, Follows form parts ⟨after, none⟩ taken := by
  obtain ⟨settings, pending⟩ := reading
  cases pending with
  | none =>
    obtain rfl := Except.ok.inj hsettle
    exact ⟨parts, h⟩
  | some pending =>
    obtain ⟨name, taking, value⟩ := pending
    cases value with
    | none => cases hsettle
    | some value =>
      have hknown := h.pending_known _ rfl
      have hfits : (Part.option name value).Fits form ↔ (taking = .path → value ≠ "") := by
        rw [Part.fits_option_iff hknown, and_iff_left (h.pending_word _ rfl value rfl)]
      refine ⟨parts ++ [.option name value], (h.gives.put_eq_ok_iff _ hknown rfl hfits).mp hsettle,
        ?_, nofun, nofun⟩
      rw [h.words_eq]
      simp [Pending.words, Part.words]

/-- An option without a value takes the next word, if it is one for it. -/
theorem await (h : reading.Follows form parts taken)
    (hpending : reading.pending = some ⟨name, taking, none⟩)
    (hword : taking = .arguments ∨ IsWord argument) :
    Follows form parts ⟨reading.settings, some ⟨name, taking, some argument⟩⟩
      (taken ++ [argument]) where
  gives := h.gives
  words_eq := by
    rw [h.words_eq, hpending]
    simp [Pending.words]
  pending_known := by
    rintro _ ⟨⟩
    exact h.pending_known ⟨name, taking, none⟩ hpending
  pending_word := by
    rintro _ ⟨⟩ _ ⟨⟩
    exact hword

/-- A flag or an option is one more part, or the start of one. -/
theorem long (h : reading.Follows form parts taken) {value : Option String} {next : Reading}
    (hlong : reading.long form name value = .ok next) :
    ∃ parts, next.Follows form parts (taken ++ [longWord name value]) := by
  unfold Reading.long at hlong
  split at hlong
  · rename_i taking hlookup
    obtain ⟨settled, hsettle, hnext⟩ := bind_eq_ok_iff.mp hlong
    obtain rfl := Except.ok.inj hnext
    obtain ⟨parts, h⟩ := h.settle hsettle
    refine ⟨parts, h.gives, ?_, ?_, ?_⟩
    · rw [h.words_eq]
      simp [Pending.words]
    · rintro _ ⟨⟩
      exact hlookup
    · rintro _ ⟨⟩ _ ⟨⟩
  · rename_i taking value hlookup
    obtain ⟨settled, hsettle, hnext⟩ := bind_eq_ok_iff.mp hlong
    obtain ⟨settings, hput, hnext⟩ := bind_eq_ok_iff.mp hnext
    obtain rfl := Except.ok.inj hnext
    obtain ⟨parts, h⟩ := h.settle hsettle
    refine ⟨parts ++ [.joined name value],
      (h.gives.put_eq_ok_iff _ hlookup rfl (Part.fits_joined_iff hlookup)).mp hput, ?_, nofun,
      nofun⟩
    rw [h.words_eq]
    simp [Part.words]
  · rename_i hlookup
    split_ifs at hlong with hunknown hvalue hhelp
    · obtain ⟨settled, hsettle, hnext⟩ := bind_eq_ok_iff.mp hlong
      cases hnext
    · obtain ⟨settled, hsettle, hnext⟩ := bind_eq_ok_iff.mp hlong
      obtain ⟨settings, hraise, hnext⟩ := bind_eq_ok_iff.mp hnext
      obtain rfl := Except.ok.inj hnext
      obtain ⟨parts, h⟩ := h.settle hsettle
      have hmem : name ∈ form.flags := by
        by_contra hnotMem
        exact hunknown ⟨hnotMem, hhelp⟩
      refine ⟨parts ++ [.flag name], (h.gives.raise_eq_ok_iff ⟨hmem, hlookup⟩).mp hraise, ?_,
        nofun, nofun⟩
      rw [not_not.mp hvalue, h.words_eq]
      simp [Part.words]

end Reading.Follows

/-! ## Reading to the end -/

/-- Where an option waits, it is the one that is pending. -/
theorem Reading.pending_eq_of_awaits {pending : Pending} (h : reading.awaits = some pending) :
    reading.pending = some ⟨pending.name, pending.taking, none⟩ := by
  unfold Reading.awaits at h
  split at h
  · rename_i name taking hpending
    obtain rfl := Option.some.inj h
    exact hpending
  · cases h

/-- **What is read from some words on is read of all of them.** -/
theorem Reading.Follows.exists_spells (h : reading.Follows form parts taken)
    (hread : read form reading arguments = .ok settings) :
    ∃ parts, Spells form parts settings (taken ++ arguments) := by
  induction arguments generalizing reading parts taken with
  | nil =>
    rw [read] at hread
    obtain ⟨parts, h⟩ := h.settle hread
    refine ⟨parts, h.gives, .inl ?_⟩
    rw [List.append_nil, h.words_eq]
    exact List.append_nil _
  | cons argument arguments ih =>
    rw [List.append_cons]
    rw [read] at hread
    split at hread
    · rename_i name hawaits
      exact ih (h.await (pending_eq_of_awaits hawaits) (.inl rfl)) hread
    · split at hread
      · rename_i hlook
        split_ifs at hread with hlast
        -- two dashes may stand behind everything
        obtain ⟨parts, h⟩ := h.settle hread
        refine ⟨parts, h.gives, .inr ?_⟩
        rw [hlast, List.append_nil, eq_of_look_escape hlook, h.words_eq]
        simp
      · rename_i name value hlook
        obtain ⟨next, hlong, hrest⟩ := bind_eq_ok_iff.mp hread
        obtain ⟨parts, h⟩ := h.long hlong
        rw [eq_longWord_of_look hlook]
        exact ih h hrest
      · rename_i letter hlook
        obtain ⟨next, hshort, hrest⟩ := bind_eq_ok_iff.mp hread
        unfold Reading.short at hshort
        split_ifs at hshort
        obtain ⟨_, -, hhelp⟩ := bind_eq_ok_iff.mp hshort
        cases hhelp
      · rename_i hlook hawaits
        have hword := look_eq_word_iff.mp hlook
        exact ih (h.await (pending_eq_of_awaits hawaits) (.inr hword)) hread
      · cases hread

/-! ## Reading what is spelled -/

/-- A word for a flag or an option, where no option waits. -/
theorem read_longWord {value : Option String} (hname : name ≠ "") (hequals : '=' ∉ name.toList)
    (hawaits : reading.awaits = none) :
    read form reading (longWord name value :: arguments)
      = (reading.long form name value).bind fun next => read form next arguments := by
  rw [read, hawaits]
  simp only [look_longWord hname hequals]
  rfl

/-- A flag, behind what can be settled. -/
theorem Reading.long_flag {settled : Settings} (hfits : (Part.flag name).Fits form)
    (hhelp : name ≠ "help") (hsettle : reading.settings.settle reading.pending = .ok settled)
    (hraise : settled.raise name = .ok after) :
    reading.long form name none = .ok ⟨after, none⟩ := by
  obtain ⟨hmem, hunknown⟩ := hfits
  unfold Reading.long
  rw [hunknown]
  simp only
  rw [if_neg (fun h => h.1 hmem), if_neg (fun h => h rfl), hsettle]
  show (if name = "help" then _ else _) = _
  rw [if_neg hhelp, hraise]
  rfl

/-- An option that has its value in the next word, behind what can be settled. -/
theorem Reading.long_option {settled : Settings} (hknown : form.options.lookup name = some taking)
    (hsettle : reading.settings.settle reading.pending = .ok settled) :
    reading.long form name none = .ok ⟨settled, some ⟨name, taking, none⟩⟩ := by
  unfold Reading.long
  rw [hknown]
  simp only
  rw [hsettle]
  rfl

/-- An option that has its value in the same word, behind what can be settled. -/
theorem Reading.long_joined {settled : Settings} (hknown : form.options.lookup name = some taking)
    (hsettle : reading.settings.settle reading.pending = .ok settled)
    (hput : settled.put name taking text = .ok after) :
    reading.long form name (some text) = .ok ⟨after, none⟩ := by
  unfold Reading.long
  rw [hknown]
  simp only
  rw [hsettle]
  show (settled.put name taking text).bind _ = _
  rw [hput]
  rfl

/-- A word for the option that waits for it. -/
theorem read_value {settled : Settings} (hword : taking = .arguments ∨ IsWord argument) :
    read form ⟨settled, some ⟨name, taking, none⟩⟩ (argument :: arguments)
      = read form ⟨settled, some ⟨name, taking, some argument⟩⟩ arguments := by
  by_cases hany : taking = .arguments
  · subst hany
    rw [read]
    rfl
  · have hlook := look_eq_word_iff.mpr (hword.resolve_left hany)
    cases taking with
    | arguments => exact absurd rfl hany
    | path | text | texts =>
      rw [read]
      simp only [Reading.awaits, hlook]

/-- **Parts that a form takes are read to the end, behind what is read of others.** -/
theorem Gives.read_eq_ok (h : Gives form (parts ++ more) settings) (hform : form.IsPlain)
    {behind : List String} (hbehind : behind = [] ∨ behind = ["--"])
    (hsettle : reading.settings.settle reading.pending = .ok (ofParts parts))
    (hawaits : reading.awaits = none) :
    read form reading (more.flatMap Part.words ++ behind) = .ok settings := by
  induction more generalizing reading parts with
  | nil =>
    rw [List.append_nil] at h
    rw [h.settings_eq, List.flatMap_nil, List.nil_append]
    rcases hbehind with rfl | rfl
    · exact hsettle
    · rw [read, hawaits]
      exact hsettle
  | cons part more ih =>
    -- the first word of a part is what settles an option before it
    have hparts : Gives form parts (ofParts parts) := h.of_append
    rw [List.append_cons] at h
    have hpart : Gives form (parts ++ [part]) (ofParts (parts ++ [part])) := h.of_append
    have hfits : part.Fits form := hpart.fits part (by simp)
    rw [List.flatMap_cons, List.append_assoc]
    cases part with
    | flag name =>
      obtain ⟨hne, hequals⟩ := hform.of_flag hfits.1
      have hraise := (hparts.raise_eq_ok_iff hfits).mpr hpart
      have hlong := Reading.long_flag hfits (fun heq => hform.help_notMem (heq ▸ hfits.1))
        hsettle hraise
      rw [Part.words, List.singleton_append, read_longWord hne hequals hawaits, hlong]
      exact ih h rfl rfl
    | option name value =>
      obtain ⟨taking, hknown, hpath, hword⟩ := hfits
      obtain ⟨hne, hequals⟩ := hform.of_lookup hknown
      have hput := (hparts.put_eq_ok_iff (.option name value) hknown rfl
        (by rw [Part.fits_option_iff hknown, and_iff_left hword])).mpr hpart
      rw [Part.words, List.cons_append, read_longWord hne hequals hawaits,
        Reading.long_option hknown hsettle]
      exact (read_value hword).trans (ih h hput rfl)
    | joined name value =>
      obtain ⟨taking, hknown, hpath⟩ := hfits
      obtain ⟨hne, hequals⟩ := hform.of_lookup hknown
      have hput := (hparts.put_eq_ok_iff (.joined name value) hknown rfl
        (Part.fits_joined_iff hknown)).mpr hpart
      rw [Part.words, List.singleton_append, read_longWord hne hequals hawaits,
        Reading.long_joined hknown hsettle hput]
      exact ih h rfl rfl

/-- **Arguments that are read are spelled parts, and what they give is what the parts give.** -/
theorem exists_spells (h : ofArguments form arguments = .ok settings) :
    ∃ parts, Spells form parts settings arguments := by
  have hgives : Gives form [] {} :=
    ⟨rfl, List.forall_mem_nil _, fun _ _ _ _ => Nat.zero_le 1, List.nodup_nil⟩
  have hstart : Reading.Follows form [] {} [] := ⟨hgives, rfl, nofun, nofun⟩
  exact hstart.exists_spells h

/-- **Settings are read from arguments exactly if parts that the form takes are spelled there and
give the settings.** -/
theorem ofArguments_eq_ok_iff (hform : form.IsPlain) :
    ofArguments form arguments = .ok settings ↔ ∃ parts, Spells form parts settings arguments := by
  refine ⟨exists_spells, ?_⟩
  rintro ⟨parts, hgives, harguments⟩
  have hread : ∀ behind : List String, behind = [] ∨ behind = ["--"] →
      ofArguments form (parts.flatMap Part.words ++ behind) = .ok settings := by
    intro behind hbehind
    have hwhole : Gives form ([] ++ parts) settings := hgives
    exact hwhole.read_eq_ok hform hbehind rfl rfl
  rcases harguments with rfl | rfl
  · rw [← List.append_nil (parts.flatMap Part.words)]
    exact hread [] (.inl rfl)
  · exact hread ["--"] (.inr rfl)

end Settings

end AccessTransformer.CommandLine
