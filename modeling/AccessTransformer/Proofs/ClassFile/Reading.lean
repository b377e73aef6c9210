import AccessTransformer.ClassFile.Skim
import Mathlib.Data.List.Forall2

/-!
# Reading what was written

A reader reads a value from bytes if it takes just these bytes from the front of whatever it is
given, and gives the value.  Readers in a row read from bytes in a row, so each form of a class file
needs to be looked at only once.

* `Bytes.bigEndian`, `Bytes.ofWord`, `Bytes.ofList`: numbers and lists as class files write them.
* `Skim.Reads`: which value a reader reads from which bytes.
* `Skim.Reads.bind`, `Skim.Reads.counted`: readers in a row, and as often as a count says.
-/

namespace AccessTransformer

/-! ## Numbers -/

namespace Bytes

/-- The lowest bytes of a number, of which there are `count`, the highest of them first. -/
def bigEndian : Nat → Nat → Bytes
  | 0, _ => []
  | count + 1, value => bigEndian count (value / 256) ++ [UInt8.ofNat (value % 256)]

@[simp] theorem length_bigEndian (count value : Nat) :
    (bigEndian count value).length = count := by
  induction count generalizing value with
  | zero => rfl
  | succ count ih => rw [bigEndian, List.length_append, ih, List.length_singleton]

/-- The bytes that write a word. -/
def ofWord (word : UInt16) : Bytes := bigEndian 2 word.toNat

/-- The bytes that write a list behind its length. -/
def ofList {α : Type} (write : α → Bytes) (values : List α) : Bytes :=
  bigEndian 2 values.length ++ values.flatMap write

theorem toNat_ofNat_mod (value : Nat) : (UInt8.ofNat (value % 256)).toNat = value % 256 :=
  UInt8.toNat_ofNat_of_lt' (Nat.mod_lt value (by decide))

/-- A word is read back from its two bytes. -/
theorem word_bigEndian (value : UInt16) :
    word (UInt8.ofNat (value.toNat / 256 % 256)) (UInt8.ofNat (value.toNat % 256)) = value := by
  have hlt : value.toNat < 65536 := value.toNat_lt
  rw [word, toNat_ofNat_mod, toNat_ofNat_mod]
  have hvalue : value.toNat / 256 % 256 * 256 + value.toNat % 256 = value.toNat := by omega
  rw [hvalue, UInt16.ofNat_toNat]

/-- A number of 32 bits is read back from its four bytes. -/
theorem doubleWord_bigEndian {value : Nat} (h : value < 0x100000000) :
    doubleWord (UInt8.ofNat (value / 256 / 256 / 256 % 256)) (UInt8.ofNat (value / 256 / 256 % 256))
      (UInt8.ofNat (value / 256 % 256)) (UInt8.ofNat (value % 256)) = value := by
  simp only [doubleWord, toNat_ofNat_mod]
  omega

end Bytes

namespace ClassFile.Skim

variable {α β γ : Type} {reader : Skim α} {bytes more : Bytes} {a : α} {b : β}

/-- Whether a reader takes just the given bytes from the front, and gives the value. -/
def Reads (reader : Skim α) (bytes : Bytes) (a : α) : Prop :=
  ∀ rest, reader (bytes ++ rest) = .ok (a, rest)

/-! ## Single values -/

theorem reads_u8 (byte : UInt8) : Reads u8 [byte] byte := fun _ => rfl

theorem reads_u16 (value : UInt16) : Reads u16 (Bytes.ofWord value) value := by
  intro rest
  show Except.ok (Bytes.word _ _, rest) = _
  rw [Bytes.word_bigEndian]

/-- A number that fits into a word is read as such. -/
theorem reads_u16_ofNat {count : Nat} (h : count < 0x10000) :
    Reads u16 (Bytes.bigEndian 2 count) (UInt16.ofNat count) := by
  have hread := reads_u16 (UInt16.ofNat count)
  rwa [Bytes.ofWord, UInt16.toNat_ofNat_of_lt' h] at hread

theorem reads_u32 {value : Nat} (h : value < 0x100000000) :
    Reads u32 (Bytes.bigEndian 4 value) value := by
  intro rest
  show Except.ok (Bytes.doubleWord _ _ _ _, rest) = _
  rw [Bytes.doubleWord_bigEndian h]

theorem reads_take (bytes : Bytes) : Reads (take bytes.length) bytes bytes := by
  intro rest
  rw [take, Bytes.splitAt?_append]

/-! ## Readers in a row -/

namespace Reads

theorem pure (a : α) : Reads (Pure.pure a) [] a := fun _ => rfl

/-- A reader and then another one. -/
theorem bind {next : α → Skim β} (h : Reads reader bytes a) (h' : Reads (next a) more b) :
    Reads (reader >>= next) (bytes ++ more) b := by
  intro rest
  rw [List.append_assoc]
  show (reader (bytes ++ (more ++ rest)) >>= fun parts => next parts.1 parts.2) = _
  rw [h]
  exact h' rest

/-- A reader and then one that takes no bytes. -/
theorem bind_nil {next : α → Skim β} (h : Reads reader bytes a) (h' : Reads (next a) [] b) :
    Reads (reader >>= next) bytes b := by
  have hboth := h.bind h'
  rwa [List.append_nil] at hboth

/-- A value made of the one that is read. -/
theorem bind_pure (h : Reads reader bytes a) (f : α → β) :
    Reads (reader >>= fun a => Pure.pure (f a)) bytes (f a) :=
  h.bind_nil (Reads.pure (f a))

/-- An outcome that takes no bytes. -/
theorem lift {outcome : Outcome α} (h : outcome = .ok a) :
    Reads (liftM outcome : Skim α) [] a := by
  intro rest
  rw [h]
  rfl

/-- A reader behind an outcome that takes no bytes. -/
theorem lift_bind {outcome : Outcome α} {next : α → Skim β} (h : outcome = .ok a)
    (h' : Reads (next a) bytes b) : Reads (liftM outcome >>= next) bytes b :=
  (lift h).bind h'

theorem skip (bytes : Bytes) : Reads (Skim.skip bytes.length) bytes () :=
  (reads_take bytes).bind_pure fun _ => ()

theorem during (h : Reads reader bytes a) (step : Step) :
    Reads (Skim.during step reader) bytes a := by
  intro rest
  rw [Skim.during, h, Outcome.during_ok]

/-- Bytes behind those that are read are not looked at. -/
theorem within_append (h : Reads reader bytes a) (more : Bytes) :
    reader.within (bytes ++ more) = .ok a := by
  rw [Skim.within, h]
  rfl

theorem within (h : Reads reader bytes a) : reader.within bytes = .ok a := by
  have hread := h.within_append []
  rwa [List.append_nil] at hread

/-! ## Lists -/

variable {write : γ → Bytes} {written : List γ} {as : List α}

/-- Values are read one after the other. -/
theorem times (h : List.Forall₂ (fun c a => Reads reader (write c) a) written as) :
    Reads (ClassFile.times reader written.length) (written.flatMap write) as := by
  induction h with
  | nil => exact Reads.pure []
  | cons hfirst _ ih =>
    rw [List.flatMap_cons]
    exact hfirst.bind (ih.bind_pure _)

/-- **Values are read as often as a count in front of them says.** -/
theorem counted (h : List.Forall₂ (fun c a => Reads reader (write c) a) written as)
    (hlength : written.length < 0x10000) :
    Reads (Skim.counted reader) (Bytes.ofList write written) as := by
  refine (reads_u16_ofNat hlength).bind ?_
  rw [UInt16.toNat_ofNat_of_lt' hlength]
  exact times h

end Reads

end ClassFile.Skim

end AccessTransformer
