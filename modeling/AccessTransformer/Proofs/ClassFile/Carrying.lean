import AccessTransformer.ClassFile.Attribute
import AccessTransformer.Proofs.ClassFile.Dissecting
import AccessTransformer.Proofs.Outcomes

/-!
# Dissecting in front of more bytes

What a dissecting reader finds in bytes of their own it finds in them wherever they stand in a file,
and whatever stands behind them.  A reader never learns how long the bytes are but by running out of
them, and where it makes sure that there are enough of them, there are enough of them in front of
more as well.

Annotations and attributes nest to as many levels as there are bytes.  In front of more bytes there
are more levels, so what is compared is one reader with few levels and one with many.  Each level
takes a byte; so as long as neither has fewer levels than bytes, none is at its last.

* `Carries`: what one reader finds in some bytes, another one finds in front of more.
* `Carries.bind`, `Carries.counted16`: readers in a row, and as often as a count says.
* `carries_elementValue`, `Attribute.carries_nested`: readers that nest.
* `Attribute.reads_nested`: an attribute that ends with its bytes is read in any file.
-/

namespace AccessTransformer.ClassFile

namespace Dissect

variable {α β : Type} {size size' : Nat} {reader reader' : Dissect α} {bytes : Bytes} {a : α}

/-- Whether what the first reader finds in at most so many bytes, the second one finds there in any
other place, and in front of any others. -/
def Carries (size : Nat) (reader reader' : Dissect α) : Prop :=
  ∀ position bytes a place, bytes.length ≤ size → reader ⟨position, bytes⟩ = .ok (a, place) →
    place.rest.length ≤ bytes.length ∧ ∀ position' more, reader' ⟨position', bytes ++ more⟩
      = .ok (a, ⟨position' + (bytes.length - place.rest.length), place.rest ++ more⟩)

/-- What is found in all of the bytes is read of them. -/
theorem Carries.reads (h : Carries size reader reader') (hsize : bytes.length ≤ size)
    {position : Nat} {place : Place} (hread : reader ⟨position, bytes⟩ = .ok (a, place))
    (hrest : place.rest = []) : Reads reader' bytes a := by
  intro position' more
  rw [(h position bytes a place hsize hread).2 position' more, hrest]
  rfl

/-! ## Single values -/

theorem Carries.pure (a : α) : Carries size (Pure.pure a) (Pure.pure a) := by
  intro position bytes b place _ h
  obtain ⟨rfl, rfl⟩ := Prod.mk.inj (Except.ok.inj h)
  refine ⟨Nat.le_refl _, fun position' more => ?_⟩
  show Except.ok _ = _
  rw [Nat.sub_self, Nat.add_zero]

theorem Carries.fail (fault : FormFault) (reader' : Dissect α) :
    Carries size (Dissect.fail fault) reader' :=
  fun _ _ _ _ _ h => nomatch h

/-- Where no bytes are nothing is found, if a reader needs some. -/
theorem Carries.of_nil (h : ∀ position, ∃ fault, reader ⟨position, []⟩ = .error fault)
    (reader' : Dissect α) : Carries 0 reader reader' := by
  intro position bytes a place hsize hread
  obtain rfl := List.length_eq_zero_iff.mp (Nat.le_zero.mp hsize)
  obtain ⟨fault, hfault⟩ := h position
  exact nomatch hfault.symm.trans hread

theorem carries_u8 : Carries size u8 u8 := by
  intro position bytes a place _ h
  rcases bytes with _ | ⟨byte, bytes⟩
  · cases h
  · obtain ⟨rfl, rfl⟩ := Prod.mk.inj (Except.ok.inj h)
    refine ⟨by simp, fun position' more => ?_⟩
    simp [u8]

theorem carries_u16 : Carries size u16 u16 := by
  intro position bytes a place _ h
  rcases bytes with _ | ⟨high, _ | ⟨low, bytes⟩⟩
  · cases h
  · cases h
  · obtain ⟨rfl, rfl⟩ := Prod.mk.inj (Except.ok.inj h)
    refine ⟨by simp; omega, fun position' more => ?_⟩
    simp [u16]
    omega

theorem carries_u32 : Carries size u32 u32 := by
  intro position bytes value place _ h
  rcases bytes with _ | ⟨a, _ | ⟨b, _ | ⟨c, _ | ⟨d, bytes⟩⟩⟩⟩
  · cases h
  · cases h
  · cases h
  · cases h
  · obtain ⟨rfl, rfl⟩ := Prod.mk.inj (Except.ok.inj h)
    refine ⟨by simp; omega, fun position' more => ?_⟩
    simp [u32]
    omega

/-- A block that is found stands in front of the rest. -/
theorem eq_append_of_block {count position : Nat} {front : Bytes} {place : Place}
    (h : block count ⟨position, bytes⟩ = .ok (front, place)) :
    bytes = front ++ place.rest ∧ front.length = count := by
  unfold block at h
  split at h
  · rename_i found rest hsplit
    obtain ⟨rfl, rfl⟩ := Prod.mk.inj (Except.ok.inj h)
    exact Bytes.splitAt?_eq_some_iff.mp hsplit
  · cases h

theorem carries_block (count : Nat) : Carries size (block count) (block count) := by
  intro position bytes front place _ h
  obtain ⟨hbytes, rfl⟩ := eq_append_of_block h
  rw [hbytes, List.length_append]
  refine ⟨by omega, fun position' more => ?_⟩
  rw [List.append_assoc, reads_block front, Nat.add_sub_cancel]

/-- Enough bytes are enough in front of more. -/
theorem carries_expectBlock (count : Nat) :
    Carries size (expectBlock count) (expectBlock count) := by
  intro position bytes a place _ h
  obtain ⟨⟨front, behind⟩, hblock, hplace⟩ := map_eq_ok_iff.mp h
  obtain ⟨rfl, rfl⟩ := Prod.mk.inj hplace
  refine ⟨Nat.le_refl _, fun position' more => ?_⟩
  have hcarries : Carries bytes.length (block count) (block count) := carries_block count
  obtain ⟨-, hmore⟩ := hcarries position bytes front behind (Nat.le_refl _) hblock
  rw [expectBlock, hmore position' more, Nat.sub_self]
  rfl

/-! ## Readers in a row -/

namespace Carries

variable {next next' : α → Dissect β}

/-- A reader and then another one, for which there may be fewer bytes. -/
theorem bind_of_length_le (h : Carries size reader reader')
    (hless : ∀ position bytes a place, bytes.length ≤ size →
      reader ⟨position, bytes⟩ = .ok (a, place) → place.rest.length ≤ size')
    (h' : ∀ a, Carries size' (next a) (next' a)) :
    Carries size (reader >>= next) (reader' >>= next') := by
  intro position bytes b place hsize hread
  obtain ⟨⟨a, middle⟩, hfirst, hsecond⟩ := bind_eq_ok_iff.mp hread
  obtain ⟨hmiddle, hcarried⟩ := h position bytes a middle hsize hfirst
  obtain ⟨hplace, hcarried'⟩ := h' a middle.position middle.rest b place
    (hless position bytes a middle hsize hfirst) hsecond
  refine ⟨Nat.le_trans hplace hmiddle, fun position' more => ?_⟩
  show (reader' ⟨position', bytes ++ more⟩ >>= fun parts => next' parts.1 parts.2) = _
  rw [hcarried position' more]
  show next' a _ = _
  rw [hcarried' _ more]
  congr 3
  omega

/-- A reader and then another one. -/
theorem bind (h : Carries size reader reader') (h' : ∀ a, Carries size (next a) (next' a)) :
    Carries size (reader >>= next) (reader' >>= next') :=
  h.bind_of_length_le (fun position bytes a place hsize hread =>
    Nat.le_trans (h position bytes a place hsize hread).1 hsize) h'

/-- A value made of the one that is read. -/
theorem bind_pure (h : Carries size reader reader') (f : α → β) :
    Carries size (reader >>= fun a => Pure.pure (f a)) (reader' >>= fun a => Pure.pure (f a)) :=
  h.bind fun a => Carries.pure (f a)

/-- An outcome that takes no bytes. -/
theorem lift_bind (outcome : Except FormFault α) (h : ∀ a, Carries size (next a) (next' a)) :
    Carries size (liftM outcome >>= next) (liftM outcome >>= next') := by
  cases outcome with
  | error fault => exact fun _ _ _ _ _ h => nomatch h
  | ok a => exact h a

/-- Behind a byte there are fewer. -/
theorem u8_bind {next next' : UInt8 → Dissect β} (h : ∀ a, Carries size (next a) (next' a)) :
    Carries (size + 1) (u8 >>= next) (u8 >>= next') := by
  refine carries_u8.bind_of_length_le (fun position bytes a place hsize hread => ?_) h
  rcases bytes with _ | ⟨byte, bytes⟩
  · cases hread
  · obtain ⟨rfl, rfl⟩ := Prod.mk.inj (Except.ok.inj hread)
    exact Nat.le_of_succ_le_succ hsize

/-- Behind a word there are fewer. -/
theorem u16_bind {next next' : UInt16 → Dissect β} (h : ∀ a, Carries size (next a) (next' a)) :
    Carries (size + 1) (u16 >>= next) (u16 >>= next') := by
  refine carries_u16.bind_of_length_le (fun position bytes a place hsize hread => ?_) h
  rcases bytes with _ | ⟨high, _ | ⟨low, bytes⟩⟩
  · cases hread
  · cases hread
  · obtain ⟨rfl, rfl⟩ := Prod.mk.inj (Except.ok.inj hread)
    simp only [List.length_cons] at hsize ⊢
    omega

theorem ite {condition : Prop} [Decidable condition] {other other' : Dissect α}
    (h : Carries size reader reader') (h' : Carries size other other') :
    Carries size (if condition then reader else other) (if condition then reader' else other') := by
  split
  · exact h
  · exact h'

/-- As many times as is known before. -/
theorem times (h : Carries size reader reader') (count : Nat) :
    Carries size (ClassFile.times reader count) (ClassFile.times reader' count) := by
  induction count with
  | zero => exact Carries.pure []
  | succ count ih => exact h.bind fun first => ih.bind_pure (first :: ·)

/-- As many times as a byte in front says. -/
theorem counted8 (h : Carries size reader reader') :
    Carries size (Dissect.counted8 reader) (Dissect.counted8 reader') :=
  carries_u8.bind fun count => h.times count.toNat

/-- As many times as a word in front says. -/
theorem counted16 (h : Carries size reader reader') :
    Carries size (Dissect.counted16 reader) (Dissect.counted16 reader') :=
  carries_u16.bind fun count => h.times count.toNat

/-- Values that are read to get behind them. -/
theorem discard (h : Carries size reader reader') :
    Carries size (do let _ ← reader) (do let _ ← reader') :=
  h.bind_pure fun _ => ()

end Carries

theorem carries_words (count : Nat) : Carries size (words count) (words count) :=
  (carries_u16.times count).discard

/-! ## Annotations and stack frames -/

/-- Values of annotations nest to as many levels as there are bytes. -/
theorem carries_elementValue (size : Nat) : ∀ levels levels', size ≤ levels → size ≤ levels' →
    Carries size (elementValue levels) (elementValue levels') := by
  induction size with
  | zero =>
    intro levels levels' _ _
    refine Carries.of_nil (fun position => ?_) _
    cases levels <;> exact ⟨_, rfl⟩
  | succ size ih =>
    intro levels levels' hlevels hlevels'
    obtain ⟨levels, rfl⟩ := Nat.exists_eq_add_one.mpr (Nat.lt_of_lt_of_le size.succ_pos hlevels)
    obtain ⟨levels', rfl⟩ := Nat.exists_eq_add_one.mpr (Nat.lt_of_lt_of_le size.succ_pos hlevels')
    have hvalue := ih levels levels' (Nat.le_of_succ_le_succ hlevels)
      (Nat.le_of_succ_le_succ hlevels')
    refine Carries.u8_bind fun tag => (carries_words 1).ite ((carries_words 2).ite ?_)
    refine Carries.ite ?_ (hvalue.counted16.discard.ite (Carries.fail _ _))
    exact (carries_words 1).bind fun _ => ((carries_words 1).bind fun _ => hvalue).counted16.discard

theorem carries_annotationValue : Carries size annotationValue annotationValue := by
  intro position bytes a place _ h
  have hread : elementValue bytes.length ⟨position, bytes⟩ = .ok (a, place) := h
  have hcarries (more : Bytes) :=
    carries_elementValue bytes.length bytes.length (bytes ++ more).length
    (Nat.le_refl _) (by simp) position bytes a place (Nat.le_refl _) hread
  exact ⟨(hcarries []).1, fun position' more => (hcarries more).2 position' more⟩

theorem carries_annotation : Carries size annotation annotation :=
  (carries_words 1).bind fun _ =>
    ((carries_words 1).bind fun _ => carries_annotationValue).counted16.discard

theorem carries_annotationTarget : Carries size annotationTarget annotationTarget := by
  refine carries_u8.bind fun target => ?_
  refine carries_u8.discard.ite ((carries_words 1).ite ((carries_u8.times 2).discard.ite ?_))
  refine (Carries.pure ()).ite ((carries_words 3).counted16.discard.ite (Carries.ite ?_ ?_))
  · exact (carries_words 1).bind fun _ => carries_u8.discard
  · exact Carries.fail _ _

theorem carries_typeAnnotation : Carries size typeAnnotation typeAnnotation :=
  carries_annotationTarget.bind fun _ => (carries_u8.times 2).counted8.bind fun _ =>
    carries_annotation

theorem carries_verificationType : Carries size verificationType verificationType :=
  carries_u8.bind fun _ => (Carries.pure ()).ite ((carries_words 1).ite (Carries.fail _ _))

theorem carries_stackFrame : Carries size stackFrame stackFrame := by
  refine carries_u8.bind fun type => ?_
  refine (Carries.pure ()).ite (carries_verificationType.ite ((Carries.fail _ _).ite ?_))
  refine Carries.ite ((carries_words 1).bind fun _ => carries_verificationType) ?_
  refine (carries_words 1).ite (Carries.ite ?_ ?_)
  · exact (carries_words 1).bind fun _ => (carries_verificationType.times _).discard
  · exact (carries_words 1).bind fun _ => carries_verificationType.counted16.bind fun _ =>
      carries_verificationType.counted16.discard

end Dissect

/-! ## Attributes -/

namespace Attribute

open Dissect

variable {size : Nat}

theorem carries_table (columns : Nat) : Carries size (form?.table columns) (form?.table columns) :=
  (carries_words columns).counted16.discard

/-- Every form finds in bytes what it finds in front of more. -/
theorem carries_form {name : String} {length : Nat} {form : Dissect Unit}
    (h : form? name length = some form) : Carries size form form := by
  unfold form? at h
  split at h
  any_goals obtain rfl := Option.some.inj h
  -- the forms that are words or tables of words, under several names each
  any_goals exact carries_words _
  any_goals exact carries_table _
  any_goals exact Carries.pure ()
  · exact ((carries_words 1).bind fun _ => carries_table 1).counted16.discard
  · exact (carries_words 2).counted8.discard
  · exact (carries_expectBlock length).bind fun _ => carries_annotation.counted16.discard
  · exact carries_annotation.counted16.discard
  · exact carries_annotation.counted16.counted8.discard
  · exact (carries_expectBlock length).bind fun _ => carries_annotationValue
  · exact carries_typeAnnotation.counted16.discard
  · exact carries_stackFrame.counted16.discard
  · cases h

/-- Attributes nest to as many levels as there are bytes. -/
theorem carries_nested (pool : Array Constant) (size : Nat) : ∀ levels levels', size ≤ levels →
    size ≤ levels' → Carries size (nested pool levels) (nested pool levels') := by
  induction size with
  | zero =>
    intro levels levels' _ _
    refine Carries.of_nil (fun position => ?_) _
    cases levels <;> exact ⟨_, rfl⟩
  | succ size ih =>
    intro levels levels' hlevels hlevels'
    obtain ⟨levels, rfl⟩ := Nat.exists_eq_add_one.mpr (Nat.lt_of_lt_of_le size.succ_pos hlevels)
    obtain ⟨levels', rfl⟩ := Nat.exists_eq_add_one.mpr (Nat.lt_of_lt_of_le size.succ_pos hlevels')
    have hnested := ih levels levels' (Nat.le_of_succ_le_succ hlevels)
      (Nat.le_of_succ_le_succ hlevels')
    refine Carries.u16_bind fun index => Carries.lift_bind _ fun name => ?_
    refine carries_u32.bind fun length => Carries.ite ?_ (Carries.ite ?_ ?_)
    · refine (carries_words 2).bind fun _ => carries_u32.bind fun count => ?_
      refine (carries_block count).bind fun instructions => ?_
      exact (carries_words 4).counted16.bind fun _ => hnested.counted16.bind_pure _
    · exact ((carries_words 2).bind fun _ => hnested.counted16.discard).counted16.bind_pure _
    · cases hform : form? name length with
      | none => exact Carries.fail _ _
      | some form => exact (carries_form hform).bind_pure _

/-- **An attribute whose form ends with its bytes is read in any file**, at all levels that are
enough for the bytes. -/
theorem reads_nested {pool : Array Constant} {bytes : Bytes} {found : Attribute} {place : Place}
    (h : nested pool bytes.length (Place.start bytes) = .ok (found, place))
    (hrest : place.rest = []) {levels : Nat} (hlevels : bytes.length ≤ levels) :
    Reads (nested pool levels) bytes found :=
  (carries_nested pool bytes.length bytes.length levels (Nat.le_refl _) hlevels).reads
    (Nat.le_refl _) h hrest

end Attribute

end AccessTransformer.ClassFile
