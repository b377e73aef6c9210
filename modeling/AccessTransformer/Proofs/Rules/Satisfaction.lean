import AccessTransformer.Proofs.Rules.Modifier
import Mathlib.Data.Nat.Bitwise

/-!
# Which flags satisfy a modifier

A modifier is defined by a list of acceptable flags, any of which is enough, and it keeps one mask.
The mask has the bits of all flags, and access flags have a bit in common with it exactly if they
have one in common with one of the flags.  So how the acceptable bits are spread over flags makes no
difference: flags may change places, occur more than once, or be split into their bits.

* `Acceptable`: the bits that a list of flags accepts.
* `Respelled`: lists of flags that differ in order, repetition and splitting.
* `ofFlags_any_of`: which lists of flags define a modifier, and what satisfies it.
-/

namespace AccessTransformer.Rules.Modifier

variable {access mask flag : UInt16} {flags flags' : List UInt16} {name : String}
  {requiresFinal : Bool} {modifier : Modifier} {bit : Nat}

/-! ## Acceptable bits -/

/-- Whether one of the flags has a bit. -/
def Acceptable (flags : List UInt16) (bit : Nat) : Prop :=
  ∃ flag ∈ flags, flag.toNat.testBit bit = true

theorem and_ne_zero_iff_exists_testBit : access &&& mask ≠ 0 ↔
    ∃ bit, access.toNat.testBit bit = true ∧ mask.toNat.testBit bit = true := by
  rw [ne_eq, ← UInt16.toNat_inj, UInt16.toNat_and, UInt16.toNat_zero]
  constructor
  · intro h
    obtain ⟨bit, hbit⟩ := Nat.exists_testBit_of_ne_zero h
    rw [Nat.testBit_and, Bool.and_eq_true] at hbit
    exact ⟨bit, hbit⟩
  · rintro ⟨bit, haccess, hmask⟩ hzero
    have hbit := congrArg (Nat.testBit · bit) hzero
    simp [haccess, hmask] at hbit

/-- Access flags have something in common with a flag if they have an acceptable bit. -/
theorem exists_and_ne_zero_iff : (∃ flag ∈ flags, access &&& flag ≠ 0) ↔
    ∃ bit, access.toNat.testBit bit = true ∧ Acceptable flags bit := by
  simp only [and_ne_zero_iff_exists_testBit, Acceptable]
  constructor
  · rintro ⟨flag, hflag, bit, haccess, hbit⟩
    exact ⟨bit, haccess, flag, hflag, hbit⟩
  · rintro ⟨bit, haccess, flag, hflag, hbit⟩
    exact ⟨flag, hflag, bit, haccess, hbit⟩

/-- The union of flags is known by the acceptable bits. -/
theorem union_eq_of_acceptable_iff (h : ∀ bit, Acceptable flags bit ↔ Acceptable flags' bit) :
    union flags = union flags' := by
  apply eq_of_and_ne_zero_iff
  intro access
  rw [and_union_ne_zero_iff, and_union_ne_zero_iff, exists_and_ne_zero_iff, exists_and_ne_zero_iff]
  exact exists_congr fun bit => and_congr_right fun _ => h bit

/-! ## Spellings -/

/-- Whether two lists of flags differ in nothing but the order of the flags, how often each of them
occurs, and how bits are put together to flags. -/
inductive Respelled : List UInt16 → List UInt16 → Prop where
  | reordered {flags flags' : List UInt16} (h : flags.Perm flags') : Respelled flags flags'
  | repeated {flag : UInt16} {flags : List UInt16} (h : flag ∈ flags) :
      Respelled flags (flag :: flags)
  | split (flag flag' : UInt16) (flags : List UInt16) :
      Respelled ((flag ||| flag') :: flags) (flag :: flag' :: flags)
  | symm {flags flags' : List UInt16} (h : Respelled flags flags') : Respelled flags' flags
  | trans {flags flags' flags'' : List UInt16} (h : Respelled flags flags')
      (h' : Respelled flags' flags'') : Respelled flags flags''

theorem acceptable_cons_iff :
    Acceptable (flag :: flags) bit ↔ flag.toNat.testBit bit = true ∨ Acceptable flags bit :=
  List.exists_mem_cons_iff _ _ _

theorem Respelled.acceptable_iff (h : Respelled flags flags') (bit : Nat) :
    Acceptable flags bit ↔ Acceptable flags' bit := by
  induction h with
  | reordered h => exact exists_congr fun flag => and_congr_left fun _ => h.mem_iff
  | repeated h =>
    rw [acceptable_cons_iff]
    exact ⟨.inr, fun hcons => hcons.elim (fun hbit => ⟨_, h, hbit⟩) id⟩
  | split flag flag' flags =>
    rw [acceptable_cons_iff, acceptable_cons_iff, acceptable_cons_iff, ← or_assoc,
      UInt16.toNat_or, Nat.testBit_or, Bool.or_eq_true]
  | symm _ ih => exact ih.symm
  | trans _ _ ih ih' => exact ih.trans ih'

/-! ## Definitions -/

theorem ofFlags_eq_ok_iff : ofFlags name requiresFinal flags = .ok modifier ↔
    ¬Text.Blank name ∧ union flags ≠ 0 ∧ modifier = ⟨name, requiresFinal, union flags⟩ := by
  rw [← Text.isBlank_eq_true_iff, Bool.not_eq_true]
  unfold ofFlags
  cases Text.isBlank name with
  | true => simp
  | false =>
    by_cases hunion : union flags = 0
    · simp [hunion]
    · simp [hunion, eq_comm]

/-- Nothing but the acceptable bits of the flags is looked at. -/
theorem ofFlags_eq_of_acceptable_iff
    (h : ∀ bit, Acceptable flags bit ↔ Acceptable flags' bit) :
    ofFlags name requiresFinal flags' = ofFlags name requiresFinal flags := by
  rw [ofFlags, ofFlags, union_eq_of_acceptable_iff h]

theorem satisfies_iff_of_ofFlags_eq_ok (h : ofFlags name requiresFinal flags = .ok modifier) :
    modifier.Satisfies access ↔
      (requiresFinal = true → access &&& 0x0010 ≠ 0) ∧ ∃ flag ∈ flags, access &&& flag ≠ 0 := by
  obtain ⟨-, -, rfl⟩ := ofFlags_eq_ok_iff.mp h
  exact and_congr_right fun _ => and_union_ne_zero_iff

/-- **A list of flags defines a modifier if the name is not blank and some flag has a bit, and
access flags satisfy it if they have a bit in common with some flag, and the final bit if that is
required.**  Lists that are spelled differently define the same modifier, and more acceptable bits
are satisfied by more. -/
theorem ofFlags_any_of (name : String) (requiresFinal : Bool) (flags : List UInt16) :
    ((∃ modifier, ofFlags name requiresFinal flags = .ok modifier) ↔
      ¬Text.Blank name ∧ ∃ flag ∈ flags, flag ≠ 0) ∧
    (∀ modifier, ofFlags name requiresFinal flags = .ok modifier → ∀ access,
      (modifier.Satisfies access ↔
        (requiresFinal = true → access &&& 0x0010 ≠ 0) ∧ ∃ flag ∈ flags, access &&& flag ≠ 0)) ∧
    (∀ flags', Respelled flags flags' →
      ofFlags name requiresFinal flags' = ofFlags name requiresFinal flags) ∧
    ∀ modifier name' flags' modifier', ofFlags name requiresFinal flags = .ok modifier →
      ofFlags name' requiresFinal flags' = .ok modifier' →
      (∀ bit, Acceptable flags bit → Acceptable flags' bit) →
      ∀ access, modifier.Satisfies access → modifier'.Satisfies access := by
  refine ⟨?_, fun modifier h access => satisfies_iff_of_ofFlags_eq_ok h,
    fun flags' h => ofFlags_eq_of_acceptable_iff h.acceptable_iff, ?_⟩
  · simp only [ofFlags_eq_ok_iff, exists_and_left, exists_eq, and_true, union_ne_zero_iff]
  · intro modifier name' flags' modifier' h h' hwithin access hsatisfies
    rw [satisfies_iff_of_ofFlags_eq_ok h, exists_and_ne_zero_iff] at hsatisfies
    rw [satisfies_iff_of_ofFlags_eq_ok h', exists_and_ne_zero_iff]
    obtain ⟨hfinal, bit, haccess, hbit⟩ := hsatisfies
    exact ⟨hfinal, bit, haccess, hwithin bit hbit⟩

/-- A modifier for what is final and can be seen by subclasses at least, with a flag too many, and
one that asks for public instead. -/
theorem ofFlags_any_of_protectedFinal :
    ofFlags "protected-f" true [0x0004, 0x0001, 0x0004] = .ok ⟨"protected-f", true, 0x0005⟩ ∧
      ofFlags "protected-f" true [0x0005] = .ok ⟨"protected-f", true, 0x0005⟩ ∧
      Satisfies ⟨"protected-f", true, 0x0005⟩ 0x0014 ∧
      ¬Satisfies ⟨"protected-f", true, 0x0005⟩ 0x0012 ∧
      ∀ access, Satisfies ⟨"public-f", true, 0x0001⟩ access →
        Satisfies ⟨"protected-f", true, 0x0005⟩ access := by
  have hpublic : ofFlags "public-f" true [0x0001] = .ok ⟨"public-f", true, 0x0001⟩ := rfl
  have hprotected : ofFlags "protected-f" true [0x0004, 0x0001, 0x0004]
      = .ok ⟨"protected-f", true, 0x0005⟩ := rfl
  obtain ⟨-, hsatisfies, hrespelled, -⟩ :=
    ofFlags_any_of "protected-f" true [0x0004, 0x0001, 0x0004]
  obtain ⟨-, -, -, hmonotone⟩ := ofFlags_any_of "public-f" true [0x0001]
  have hspelling : Respelled [0x0004, 0x0001, 0x0004] [0x0005] :=
    .trans (.symm (.repeated (by decide))) (.trans (.reordered (by decide))
      (.symm (.split 0x0004 0x0001 [])))
  refine ⟨hprotected, (hrespelled _ hspelling).trans hprotected, ?_, ?_, ?_⟩
  · exact (hsatisfies _ hprotected _).mpr ⟨by decide, 0x0004, by decide, by decide⟩
  · exact mt (hsatisfies _ hprotected _).mp (by decide)
  · refine hmonotone _ _ _ _ hpublic hprotected fun bit hbit => ?_
    obtain ⟨flag, hflag, hbit⟩ := hbit
    obtain rfl := List.mem_singleton.mp hflag
    exact ⟨0x0001, by decide, hbit⟩

end AccessTransformer.Rules.Modifier
