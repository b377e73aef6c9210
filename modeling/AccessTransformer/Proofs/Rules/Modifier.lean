import AccessTransformer.Proofs.Text.Blank
import AccessTransformer.Rules.Modifier
import Mathlib.Data.List.Basic

/-!
# Modifiers of a rules file

An entry of a rules file gives a modifier by the name of a preset or by a definition.  The flags of
a definition are kept as the union of their bits, and nothing is lost by that: access flags have a
bit in common with the union exactly if they have one in common with one of the flags.

* `Modifier.and_union_ne_zero_iff`: what the union of flags has in common with others.
* `ModifierEntry.modifier_eq_ok_iff`, `ModifierEntry.modifier_eq_error_iff`: which modifier an entry
  stands for, and what is wrong with one that stands for none.
-/

namespace AccessTransformer.Rules

namespace Modifier

variable {access mask mask' : UInt16} {flags : List UInt16}

/-! ## Unions of flags -/

theorem and_or_ne_zero_iff : access &&& (mask ||| mask') ≠ 0 ↔
    access &&& mask ≠ 0 ∨ access &&& mask' ≠ 0 := by
  have hdistrib : access &&& (mask ||| mask') = access &&& mask ||| access &&& mask' :=
    UInt16.toBitVec_inj.mp BitVec.and_or_distrib_left
  rw [hdistrib, ne_eq, UInt16.or_eq_zero_iff, Decidable.not_and_iff_not_or_not]

theorem and_foldl_or_ne_zero_iff : access &&& flags.foldl (· ||| ·) mask ≠ 0 ↔
    access &&& mask ≠ 0 ∨ ∃ flag ∈ flags, access &&& flag ≠ 0 := by
  induction flags generalizing mask with
  | nil => simp
  | cons flag flags ih =>
    rw [List.foldl_cons, ih, and_or_ne_zero_iff, or_assoc]
    simp

/-- **The union of flags has a bit in common with access flags exactly if one of the flags has.** -/
theorem and_union_ne_zero_iff :
    access &&& union flags ≠ 0 ↔ ∃ flag ∈ flags, access &&& flag ≠ 0 := by
  rw [union, and_foldl_or_ne_zero_iff, UInt16.and_zero, ne_self_iff_false, false_or]

/-- The union of flags has a bit exactly if one of the flags has one. -/
theorem union_ne_zero_iff : union flags ≠ 0 ↔ ∃ flag ∈ flags, flag ≠ 0 := by
  have hall : -1 &&& union flags ≠ 0 ↔ ∃ flag ∈ flags, -1 &&& flag ≠ 0 := and_union_ne_zero_iff
  simpa only [UInt16.neg_one_and] using hall

/-- Flags that have no bit outside others are part of them. -/
theorem and_eq_of_not_and_eq_zero (h : ~~~mask' &&& mask = 0) : mask' &&& mask = mask := by
  apply UInt16.toBitVec_inj.mp
  have hbits := UInt16.toBitVec_inj.mpr h
  rw [UInt16.toBitVec_and, UInt16.toBitVec_not] at hbits
  calc mask'.toBitVec &&& mask.toBitVec
      = mask'.toBitVec &&& mask.toBitVec ||| ~~~mask'.toBitVec &&& mask.toBitVec := by
        rw [hbits, UInt16.toBitVec_zero, BitVec.or_zero]
    _ = (mask'.toBitVec ||| ~~~mask'.toBitVec) &&& mask.toBitVec :=
        BitVec.and_or_distrib_right.symm
    _ = mask.toBitVec := by rw [BitVec.or_not_self, BitVec.allOnes_and]

/-- A mask is known by the access flags that have a bit in common with it. -/
theorem eq_of_and_ne_zero_iff
    (h : ∀ access : UInt16, access &&& mask ≠ 0 ↔ access &&& mask' ≠ 0) : mask = mask' := by
  have hpart : mask' &&& mask = mask := by
    apply and_eq_of_not_and_eq_zero
    by_contra hne
    exact (h _).mp hne UInt16.not_and_self
  have hpart' : mask &&& mask' = mask' := by
    apply and_eq_of_not_and_eq_zero
    by_contra hne
    exact (h _).mpr hne UInt16.not_and_self
  rw [← hpart, UInt16.and_comm, hpart']

end Modifier

/-! ## Entries -/

namespace ModifierEntry

variable {entry : ModifierEntry} {modifier modifier' : Modifier} {fault fault' : Fault}

/-- Whether an entry is the name of a preset, or a definition with a name that is not blank and a
flag that has a bit. -/
def IsValid : ModifierEntry → Prop
  | .preset name => name = "public" ∨ name = "protected"
  | .explicit name _ flags => ¬Text.Blank name ∧ ∃ flag ∈ flags, flag ≠ 0

/-- Whether an entry stands for a modifier.  The preset `protected` is content with public flags
too, and the mask of a definition has just the bits of its flags. -/
inductive StandsFor : ModifierEntry → Modifier → Prop where
  | publicPreset {name : String} (hname : name = "public") :
      StandsFor (.preset name) ⟨name, false, 0x0001⟩
  | protectedPreset {name : String} (hname : name = "protected") :
      StandsFor (.preset name) ⟨name, false, 0x0001 ||| 0x0004⟩
  | explicit {name : String} {requiresFinal : Bool} {flags : List UInt16} {mask : UInt16}
      (hname : ¬Text.Blank name) (hflags : ∃ flag ∈ flags, flag ≠ 0)
      (hmask : ∀ access : UInt16, access &&& mask ≠ 0 ↔ ∃ flag ∈ flags, access &&& flag ≠ 0) :
      StandsFor (.explicit name requiresFinal flags) ⟨name, requiresFinal, mask⟩

/-- What is wrong with an entry that stands for no modifier.  Of a definition with two faults the
blank name is the one that counts. -/
inductive Breaks : ModifierEntry → Fault → Prop where
  | unknown {name : String} (hpublic : name ≠ "public") (hprotected : name ≠ "protected") :
      Breaks (.preset name) (.unknownModifier name)
  | blankName {name : String} {requiresFinal : Bool} {flags : List UInt16}
      (hname : Text.Blank name) :
      Breaks (.explicit name requiresFinal flags) .emptyModifierName
  | noFlag {name : String} {requiresFinal : Bool} {flags : List UInt16}
      (hname : ¬Text.Blank name) (hflags : ∀ flag ∈ flags, flag = 0) :
      Breaks (.explicit name requiresFinal flags) (.emptyFlagSet name)

theorem StandsFor.isValid (h : entry.StandsFor modifier) : entry.IsValid := by
  cases h with
  | publicPreset hname => exact Or.inl hname
  | protectedPreset hname => exact Or.inr hname
  | explicit hname hflags _ => exact ⟨hname, hflags⟩

theorem StandsFor.unique (h : entry.StandsFor modifier) (h' : entry.StandsFor modifier') :
    modifier = modifier' := by
  cases h with
  | publicPreset hname =>
    cases h' with
    | publicPreset _ => rfl
    | protectedPreset hname' => exact absurd (hname.symm.trans hname') (by decide)
  | protectedPreset hname =>
    cases h' with
    | publicPreset hname' => exact absurd (hname.symm.trans hname') (by decide)
    | protectedPreset _ => rfl
  | explicit _ _ hmask =>
    cases h' with
    | explicit _ _ hmask' =>
      rw [Modifier.eq_of_and_ne_zero_iff fun access => (hmask access).trans (hmask' access).symm]

theorem Breaks.not_isValid (h : entry.Breaks fault) : ¬entry.IsValid := by
  cases h with
  | unknown hpublic hprotected => exact fun hvalid => hvalid.elim hpublic hprotected
  | blankName hname => exact fun hvalid => hvalid.1 hname
  | noFlag _ hflags =>
    rintro ⟨-, flag, hflag, hne⟩
    exact hne (hflags flag hflag)

theorem Breaks.unique (h : entry.Breaks fault) (h' : entry.Breaks fault') : fault = fault' := by
  cases h with
  | unknown _ _ =>
    cases h'
    rfl
  | blankName hname =>
    cases h' with
    | blankName _ => rfl
    | noFlag hname' _ => exact absurd hname hname'
  | noFlag hname _ =>
    cases h' with
    | blankName hname' => exact absurd hname' hname
    | noFlag _ _ => rfl

/-- **An entry is read as the modifier that it stands for, or refused for what is wrong with
it.** -/
theorem modifier_cases (entry : ModifierEntry) :
    (∃ modifier, entry.StandsFor modifier ∧ entry.modifier = .ok modifier) ∨
      ∃ fault, entry.Breaks fault ∧ entry.modifier = .error fault := by
  cases entry with
  | preset name =>
    rw [ModifierEntry.modifier, Modifier.ofPreset]
    by_cases hpublic : name = "public"
    · exact Or.inl ⟨_, .publicPreset hpublic, if_pos hpublic⟩
    · by_cases hprotected : name = "protected"
      · exact Or.inl ⟨_, .protectedPreset hprotected,
          (if_neg hpublic).trans (if_pos hprotected)⟩
      · exact Or.inr ⟨_, .unknown hpublic hprotected,
          (if_neg hpublic).trans (if_neg hprotected)⟩
  | explicit name requiresFinal flags =>
    rw [ModifierEntry.modifier, Modifier.ofFlags]
    by_cases hname : Text.Blank name
    · exact Or.inr ⟨_, .blankName hname, if_pos (Text.isBlank_eq_true_iff.mpr hname)⟩
    · rw [if_neg (mt Text.isBlank_eq_true_iff.mp hname)]
      by_cases hunion : Modifier.union flags = 0
      · refine Or.inr ⟨_, .noFlag hname fun flag hflag => ?_, if_pos hunion⟩
        by_contra hne
        exact Modifier.union_ne_zero_iff.mpr ⟨flag, hflag, hne⟩ hunion
      · exact Or.inl ⟨_, .explicit hname (Modifier.union_ne_zero_iff.mp hunion)
          fun _ => Modifier.and_union_ne_zero_iff, if_neg hunion⟩

theorem modifier_eq_ok_iff : entry.modifier = .ok modifier ↔ entry.StandsFor modifier := by
  rcases entry.modifier_cases with ⟨read, hstands, h⟩ | ⟨fault, hbreaks, h⟩
  · rw [h, Except.ok.injEq]
    exact ⟨fun heq => heq ▸ hstands, hstands.unique⟩
  · rw [h]
    exact iff_of_false nofun fun hstands => hbreaks.not_isValid hstands.isValid

theorem modifier_eq_error_iff : entry.modifier = .error fault ↔ entry.Breaks fault := by
  rcases entry.modifier_cases with ⟨modifier, hstands, h⟩ | ⟨found, hbreaks, h⟩
  · rw [h]
    exact iff_of_false nofun fun hbreaks => hbreaks.not_isValid hstands.isValid
  · rw [h, Except.error.injEq]
    exact ⟨fun heq => heq ▸ hbreaks, hbreaks.unique⟩

theorem exists_modifier_eq_ok_iff :
    (∃ modifier, entry.modifier = .ok modifier) ↔ entry.IsValid := by
  rcases entry.modifier_cases with ⟨modifier, hstands, h⟩ | ⟨fault, hbreaks, h⟩
  · exact iff_of_true ⟨modifier, h⟩ hstands.isValid
  · rw [h]
    exact iff_of_false nofun hbreaks.not_isValid

end ModifierEntry

end AccessTransformer.Rules
