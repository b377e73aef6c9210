import AccessTransformer.ClassFile.Calls
import AccessTransformer.Proofs.ClassFile.Reading
import AccessTransformer.Proofs.Outcomes
import Mathlib

/-!
# Class files that are cut short

A skimming reader takes a front of its bytes.  It gives the same value whatever stands behind this
front, and of every shorter one it says that the bytes end too early: a file that is cut short is
never taken for another one.

That holds of every reader that is made of taking bytes in a row, since what is taken next depends
only on what was taken before.  So it is shown of the single readers, and of readers in a row, and
the readers of whole files are no more than that.

* `Skim.Needs`: a reader gives a value for just these bytes, and runs out in any front of them.
* `Skim.IsFrugal`: all that a reader takes, it needs.
* `IsFrugal.bind`, `IsFrugal.counted`: readers in a row, and as often as a count says.
* `exists_endsAt`: what is read of a class file needs a front of it, and no more.
-/

namespace AccessTransformer.ClassFile

namespace Skim

variable {α β : Type} {reader : Skim α} {bytes more : Bytes} {a : α} {b : β}

/-! ## Running out -/

/-- Whether a reader fails because its bytes end too early. -/
def RunsOut (reader : Skim α) (bytes : Bytes) : Prop :=
  ∃ failure, reader bytes = .error failure ∧ failure.cause = .classFile .outOfBounds

/-- Whether a reader takes just the given bytes for a value, and does not do with less. -/
structure Needs (reader : Skim α) (bytes : Bytes) (a : α) : Prop where
  reads : Reads reader bytes a
  runsOut : ∀ less missing, bytes = less ++ missing → missing ≠ [] → RunsOut reader less

/-- Whether a reader needs all that it takes. -/
def IsFrugal (reader : Skim α) : Prop :=
  ∀ bytes a rest, reader bytes = .ok (a, rest) →
    ∃ front, bytes = front ++ rest ∧ Needs reader front a

theorem RunsOut.bind (h : RunsOut reader bytes) (next : α → Skim β) :
    RunsOut (reader >>= next) bytes := by
  obtain ⟨failure, hfailure, hcause⟩ := h
  refine ⟨failure, ?_, hcause⟩
  show (reader bytes >>= fun parts => next parts.1 parts.2) = _
  rw [hfailure]
  rfl

/-- Where the first reader takes its bytes, the second may still run out. -/
theorem Reads.bind_runsOut {next : α → Skim β} (h : Reads reader bytes a)
    (h' : RunsOut (next a) more) : RunsOut (reader >>= next) (bytes ++ more) := by
  obtain ⟨failure, hfailure, hcause⟩ := h'
  refine ⟨failure, ?_, hcause⟩
  show (reader (bytes ++ more) >>= fun parts => next parts.1 parts.2) = _
  rw [h]
  exact hfailure

/-- No bytes have no front to run out in. -/
theorem Reads.needs_nil (h : Reads reader [] a) : Needs reader [] a where
  reads := h
  runsOut _ _ heq hmissing :=
    absurd (List.append_eq_nil_iff.mp heq.symm).2 hmissing

/-- **Readers in a row need their bytes in a row.** -/
theorem Needs.bind {next : α → Skim β} (h : Needs reader bytes a) (h' : Needs (next a) more b) :
    Needs (reader >>= next) (bytes ++ more) b where
  reads := h.reads.bind h'.reads
  runsOut less missing heq hmissing := by
    -- the cut is in the bytes of the first reader, or in those of the second
    rcases List.append_eq_append_iff.mp heq with ⟨taken, rfl, hmore⟩ | ⟨cut, hbytes, hcut⟩
    · exact h.reads.bind_runsOut (h'.runsOut taken missing hmore hmissing)
    · rcases eq_or_ne cut [] with rfl | hne
      · rw [List.append_nil] at hbytes
        rw [List.nil_append] at hcut
        rw [← hbytes, ← List.append_nil bytes]
        exact h.reads.bind_runsOut (h'.runsOut [] missing hcut.symm hmissing)
      · exact (h.runsOut less cut hbytes hne).bind next

/-! ## Single values -/

namespace IsFrugal

theorem pure (a : α) : IsFrugal (Pure.pure a) := by
  intro bytes b rest h
  obtain ⟨rfl, rfl⟩ := Prod.mk.inj (Except.ok.inj h)
  exact ⟨[], rfl, (Reads.pure a).needs_nil⟩

/-- An outcome that takes no bytes. -/
theorem lift (outcome : Outcome α) : IsFrugal (liftM outcome : Skim α) := by
  intro bytes a rest h
  obtain ⟨value, hvalue, h⟩ := bind_eq_ok_iff.mp h
  obtain ⟨rfl, rfl⟩ := Prod.mk.inj (Except.ok.inj h)
  exact ⟨[], rfl, (Reads.lift hvalue).needs_nil⟩

theorem take (count : Nat) : IsFrugal (Skim.take count) := by
  intro bytes front rest h
  unfold Skim.take at h
  split at h
  · rename_i parts hparts
    obtain rfl := Except.ok.inj h
    obtain ⟨rfl, rfl⟩ := Bytes.splitAt?_eq_some_iff.mp hparts
    refine ⟨front, rfl, reads_take front, fun less missing heq hmissing => ?_⟩
    have hless : less.length < front.length := by
      have hpositive := List.length_pos_iff.mpr hmissing
      rw [heq, List.length_append]
      omega
    have hnone : Bytes.splitAt? front.length less = none := by
      rw [Option.eq_none_iff_forall_ne_some]
      rintro ⟨before, after⟩ hsome
      have hlength := Bytes.length_of_splitAt? hsome
      omega
    exact ⟨_, by rw [Skim.take, hnone]; rfl, rfl⟩
  · cases h

/-! ## Readers in a row -/

/-- A reader and then another one. -/
theorem bind {next : α → Skim β} (h : IsFrugal reader) (h' : ∀ a, IsFrugal (next a)) :
    IsFrugal (reader >>= next) := by
  intro bytes b rest hread
  obtain ⟨⟨a, behind⟩, hfirst, hsecond⟩ := bind_eq_ok_iff.mp hread
  obtain ⟨front, rfl, hfront⟩ := h bytes a behind hfirst
  obtain ⟨middle, rfl, hmiddle⟩ := h' a behind b rest hsecond
  exact ⟨front ++ middle, (List.append_assoc _ _ _).symm, hfront.bind hmiddle⟩

/-- A value made of the one that is read. -/
theorem bind_pure (h : IsFrugal reader) (f : α → β) :
    IsFrugal (reader >>= fun a => Pure.pure (f a)) :=
  h.bind fun a => pure (f a)

theorem ite {condition : Prop} [Decidable condition] {other : Skim α} (h : IsFrugal reader)
    (h' : IsFrugal other) : IsFrugal (if condition then reader else other) := by
  split
  · exact h
  · exact h'

theorem during (h : IsFrugal reader) (step : Step) : IsFrugal (Skim.during step reader) := by
  intro bytes a rest hread
  obtain ⟨front, rfl, hreads, hruns⟩ := h bytes a rest (Outcome.during_eq_ok_iff.mp hread)
  refine ⟨front, rfl, hreads.during step, fun less missing heq hmissing => ?_⟩
  obtain ⟨failure, hfailure, hcause⟩ := hruns less missing heq hmissing
  refine ⟨⟨step :: failure.steps, failure.cause⟩, ?_, hcause⟩
  rw [Skim.during, hfailure]
  rfl

theorem skip (count : Nat) : IsFrugal (Skim.skip count) :=
  (take count).bind_pure fun _ => ()

theorem u8 : IsFrugal Skim.u8 := by
  have htake : Skim.u8 = (Skim.take 1 >>= fun bytes => Pure.pure (bytes.headD 0)) := by
    funext bytes
    cases bytes <;> rfl
  exact htake ▸ (take 1).bind_pure _

theorem u16 : IsFrugal Skim.u16 := by
  have htake : Skim.u16 = (Skim.take 2 >>= fun bytes => Pure.pure
      (Bytes.word (bytes.getD 0 0) (bytes.getD 1 0))) := by
    funext bytes
    rcases bytes with _ | ⟨high, _ | ⟨low, bytes⟩⟩ <;> rfl
  exact htake ▸ (take 2).bind_pure _

theorem u32 : IsFrugal Skim.u32 := by
  have htake : Skim.u32 = (Skim.take 4 >>= fun bytes => Pure.pure
      (Bytes.doubleWord (bytes.getD 0 0) (bytes.getD 1 0) (bytes.getD 2 0) (bytes.getD 3 0))) := by
    funext bytes
    rcases bytes with _ | ⟨a, _ | ⟨b, _ | ⟨c, _ | ⟨d, bytes⟩⟩⟩⟩ <;> rfl
  exact htake ▸ (take 4).bind_pure _

/-- As many times as is known before. -/
theorem times (h : IsFrugal reader) (count : Nat) : IsFrugal (ClassFile.times reader count) := by
  induction count with
  | zero => exact pure []
  | succ count ih => exact h.bind fun first => ih.bind_pure (first :: ·)

/-- As many times as a count in front says. -/
theorem counted (h : IsFrugal reader) : IsFrugal (Skim.counted reader) :=
  u16.bind fun count => h.times count.toNat

end IsFrugal

end Skim

/-! ## The parts of a class file -/

open Skim

theorem ConstantPool.isFrugal_constant (index : Nat) (tag : UInt8) :
    IsFrugal (ConstantPool.constant index tag) := by
  unfold ConstantPool.constant
  split
  -- what is not kept is passed over
  any_goals exact (IsFrugal.skip _).bind_pure _
  · exact IsFrugal.u16.bind fun length => (IsFrugal.take _).bind fun bytes =>
      (IsFrugal.lift _).bind_pure _
  · exact IsFrugal.u16.bind_pure _
  iterate 3 exact IsFrugal.u16.bind fun _ => IsFrugal.u16.bind_pure _
  · exact IsFrugal.lift _

theorem ConstantPool.isFrugal_slotsFrom (index count : Nat) :
    IsFrugal (ConstantPool.slotsFrom index count) := by
  fun_induction ConstantPool.slotsFrom index count with
  | case1 => exact IsFrugal.pure []
  | case2 index => exact IsFrugal.u8.bind fun tag => (isFrugal_constant index tag).bind_pure _
  | case3 index count ihWide ih =>
    refine IsFrugal.u8.bind fun tag => (isFrugal_constant index tag).bind fun entry => ?_
    exact (ihWide.bind_pure _).ite (ih.bind_pure _)

theorem ConstantPool.isFrugal_read : IsFrugal ConstantPool.read :=
  IsFrugal.u16.bind fun _ => (isFrugal_slotsFrom 1 _).bind_pure _

variable (pool : ConstantPool)

theorem isFrugal_classReference (step : Step) : IsFrugal (classReference pool step) :=
  IsFrugal.u16.bind fun _ => IsFrugal.lift _

theorem isFrugal_textReference (step : Step) : IsFrugal (textReference pool step) :=
  IsFrugal.u16.bind fun _ => IsFrugal.lift _

theorem isFrugal_header : IsFrugal header := by
  refine IsFrugal.u32.bind fun number => ?_
  have hbehind : IsFrugal (do
      Skim.skip 4
      let pool ← Skim.during .readPool ConstantPool.read
      let access ← Skim.u16
      let this ← Skim.u16
      let super ← Skim.u16
      let name ← (pool.className this).during .className
      let superclass ← superclassName pool super
      let interfaces ← Skim.counted (classReference pool .interfaceName)
      return ({ pool, access, name, superclass, interfaces } : Header)) := by
    refine (IsFrugal.skip 4).bind fun _ => ?_
    refine (ConstantPool.isFrugal_read.during .readPool).bind fun pool => ?_
    refine IsFrugal.u16.bind fun _ => IsFrugal.u16.bind fun _ => IsFrugal.u16.bind fun _ => ?_
    refine (IsFrugal.lift _).bind fun _ => (IsFrugal.lift _).bind fun _ => ?_
    exact (isFrugal_classReference pool _).counted.bind_pure _
  exact ((IsFrugal.lift _).bind fun _ => hbehind).ite hbehind

theorem isFrugal_skipAttribute : IsFrugal skipAttribute :=
  (IsFrugal.skip 2).bind fun _ => IsFrugal.u32.bind fun length => IsFrugal.skip length

theorem isFrugal_member : IsFrugal (member pool) := by
  refine IsFrugal.u16.bind fun _ => (isFrugal_textReference pool _).bind fun _ => ?_
  refine (isFrugal_textReference pool _).bind fun _ => ?_
  exact isFrugal_skipAttribute.counted.bind_pure _

theorem isFrugal_members (step : Step) : IsFrugal (members pool step) :=
  (isFrugal_member pool).counted.during step

theorem isFrugal_namedBody : IsFrugal (namedBody pool) :=
  (isFrugal_textReference pool _).bind fun _ => IsFrugal.u32.bind fun length =>
    (IsFrugal.take length).bind_pure _

/-- The bodies of attributes are looked into only when they are there as a whole. -/
theorem isFrugal_effectiveAccess (name : String) (access : UInt16) (count : Nat) :
    IsFrugal (effectiveAccess pool name access count) := by
  induction count generalizing access with
  | zero => exact IsFrugal.pure access
  | succ count ih =>
    exact (isFrugal_namedBody pool).bind fun _ => (IsFrugal.lift _).bind fun flags =>
      ih (flags.getD access)

theorem isFrugal_callsInAttributes (step : Step) (calls : List CallSite) (count : Nat) :
    IsFrugal (callsInAttributes pool step calls count) := by
  induction count generalizing calls with
  | zero => exact IsFrugal.pure calls
  | succ count ih =>
    exact (isFrugal_namedBody pool).bind fun _ => (IsFrugal.lift _).bind fun found =>
      ih (found.getD calls)

theorem isFrugal_methodCalls : IsFrugal (methodCalls pool) := by
  refine (IsFrugal.skip 2).bind fun _ => (isFrugal_textReference pool _).bind fun name => ?_
  refine (isFrugal_textReference pool _).bind fun descriptor => IsFrugal.u16.bind fun count => ?_
  exact (isFrugal_callsInAttributes pool _ [] count.toNat).bind_pure _

theorem isFrugal_declaration : IsFrugal declaration := by
  refine isFrugal_header.bind fun header => ?_
  refine (isFrugal_members header.pool .fields).bind fun _ => ?_
  refine (isFrugal_members header.pool .methods).bind fun _ => IsFrugal.u16.bind fun count => ?_
  exact (isFrugal_effectiveAccess header.pool header.name header.access count.toNat).bind_pure _

theorem isFrugal_classCalls : IsFrugal classCalls := by
  refine isFrugal_header.bind fun header => ?_
  refine (isFrugal_members header.pool .fields).bind fun _ => ?_
  exact (isFrugal_methodCalls header.pool).counted.bind_pure _

/-! ## Whole files -/

/-- Whether what is found in bytes ends at some place in them: it is found in the bytes up to there
and in more of them, whatever follows, and any fewer bytes end too early. -/
structure EndsAt {α : Type} (read : Bytes → Outcome α) (bytes : Bytes) (a : α) (place : Nat) :
    Prop where
  le_length : place ≤ bytes.length
  fewer : ∀ count < place, ∃ failure,
    read (bytes.take count) = .error failure ∧ failure.cause = .classFile .outOfBounds
  enough : ∀ count, place ≤ count → count ≤ bytes.length → read (bytes.take count) = .ok a
  append : ∀ more, read (bytes ++ more) = .ok a

/-- What a frugal reader finds ends somewhere. -/
theorem Skim.IsFrugal.exists_place {α : Type} {reader : Skim α} {bytes : Bytes} {a : α}
    (h : IsFrugal reader) (hread : reader.within bytes = .ok a) :
    ∃ place, EndsAt reader.within bytes a place := by
  obtain ⟨⟨value, rest⟩, hvalue, rfl⟩ := map_eq_ok_iff.mp hread
  obtain ⟨front, rfl, hneeds⟩ := h bytes value rest hvalue
  refine ⟨front.length, ?_, fun count hcount => ?_, fun count hcount _ => ?_, fun more => ?_⟩
  · rw [List.length_append]
    exact Nat.le_add_right _ _
  · have htake : (front ++ rest).take count = front.take count :=
      List.take_append_of_le_length (Nat.le_of_lt hcount)
    have hmissing : front.drop count ≠ [] := by
      rw [Ne, List.drop_eq_nil_iff, not_le]
      exact hcount
    obtain ⟨failure, hfailure, hcause⟩ :=
      hneeds.runsOut _ _ (List.take_append_drop count front).symm hmissing
    exact ⟨failure, by rw [htake, Skim.within, hfailure]; rfl, hcause⟩
  · rw [List.take_append, List.take_of_length_le hcount]
    exact hneeds.reads.within_append _
  · rw [List.append_assoc]
    exact hneeds.reads.within_append _

/-- **What is read of a class file needs a front of it, and no more.**  This holds of the class that
it declares, and of the calls that are found by skimming it: the file may be cut behind that front,
or go on in any way, and if it is cut before, it is found to end too early. -/
theorem exists_endsAt (bytes : Bytes) :
    (∀ declaration, ClassDeclaration.read bytes = .ok declaration →
      ∃ place, EndsAt ClassDeclaration.read bytes declaration place) ∧
    ∀ calls, ClassCalls.skim bytes = .ok calls →
      ∃ place, EndsAt ClassCalls.skim bytes calls place :=
  ⟨fun _ => isFrugal_declaration.exists_place, fun _ => isFrugal_classCalls.exists_place⟩

/-- A class that lists itself as a nested class, and two bytes behind it. -/
def nestedInItself : Bytes :=
  [0xca, 0xfe, 0xba, 0xbe, 0x00, 0x00, 0x00, 0x34, 0x00, 0x04, 0x01, 0x00, 0x01, 0x41, 0x07, 0x00,
    0x01, 0x01, 0x00, 0x0c, 0x49, 0x6e, 0x6e, 0x65, 0x72, 0x43, 0x6c, 0x61, 0x73, 0x73, 0x65, 0x73,
    0x00, 0x21, 0x00, 0x02, 0x00, 0x00, 0x00, 0x00, 0x00, 0x00, 0x00, 0x00, 0x00, 0x01, 0x00, 0x03,
    0x00, 0x00, 0x00, 0x0a, 0x00, 0x01, 0x00, 0x02, 0x00, 0x00, 0x00, 0x00, 0x00, 0x0a, 0xca, 0xfe]

/-- Its flags are in its last bytes, where skimming its calls does not go. -/
theorem exists_endsAt_nestedInItself :
    ClassDeclaration.read nestedInItself = .ok ⟨"A", 0x000a, none, [], [], []⟩ ∧
      ClassCalls.skim nestedInItself = .ok ⟨"A", []⟩ ∧
      (∃ place, EndsAt ClassDeclaration.read nestedInItself ⟨"A", 0x000a, none, [], [], []⟩ place) ∧
      ∃ place, EndsAt ClassCalls.skim nestedInItself ⟨"A", []⟩ place := by
  have hread : ClassDeclaration.read nestedInItself = .ok ⟨"A", 0x000a, none, [], [], []⟩ := by
    decide +kernel
  have hskim : ClassCalls.skim nestedInItself = .ok ⟨"A", []⟩ := by decide +kernel
  obtain ⟨hdeclaration, hcalls⟩ := exists_endsAt nestedInItself
  exact ⟨hread, hskim, hdeclaration _ hread, hcalls _ hskim⟩

end AccessTransformer.ClassFile
