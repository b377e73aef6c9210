import AccessTransformer.Bytes
import Mathlib.Tactic.ByContra

/-!
# Reading in place

Bytes can be read where they stand: an index goes over them, numbers are put together from single
bytes, and what is found is put into tables of a fixed size.  There are places then that such
reading must never get to.  An index or a slot may lie outside, a number may be too large for a
register, and some faults are checked for although they cannot come up any more.

These places are breaches here.  Reading in place gives a value or a fault, and to say that it does
so safely is to say that it gets to no breach.

* `Checked`: outcomes with breaches, and `Checked.safely` for those without.
* `byteAt`, `slice?`, `fits`: single bytes, some bytes, and numbers of a register.
* `slice?_add`: bytes from a place on are those at the front of what stands there.
-/

namespace AccessTransformer.InPlace

/-- What reading in place must never get to. -/
inductive Breach where
  /-- An index at or behind the end of the bytes. -/
  | index (place size : Nat)
  /-- A slot at or behind the end of the table. -/
  | slot (place size : Nat)
  /-- A cursor that goes behind the end of the bytes. -/
  | beyond (offset size : Nat)
  /-- A number that takes more than 64 bits. -/
  | overflow (value : Nat)
  /-- A call that is complete and lacks its operand. -/
  | operandCut
  /-- An instruction where there is no byte. -/
  | noInstruction
  /-- A call that was found and makes no call. -/
  | noCall (opcode : UInt8)
  /-- A loop that is not through after as many rounds as it had. -/
  | unfinished
  deriving DecidableEq, Repr

/-- A value or a fault, or else a breach. -/
abbrev Checked (ε : Type) := ExceptT ε (Except Breach)

namespace Checked

variable {α β ε : Type}

/-- The outcome that gets to a breach. -/
def breach (breach : Breach) : Checked ε α := (Except.error breach : Except Breach (Except ε α))

/-- The outcome that gets to no breach. -/
def safely (x : Except ε α) : Checked ε α := (Except.ok x : Except Breach (Except ε α))

/-- The same value or fault, told in another way. -/
def mapOutcome {α' ε' : Type} (f : Except ε α → Except ε' α') (x : Checked ε α) : Checked ε' α' :=
  Except.map f (show Except Breach (Except ε α) from x)

@[simp] theorem mapOutcome_safely {α' ε' : Type} (f : Except ε α → Except ε' α')
    (x : Except ε α) : mapOutcome f (safely x) = safely (f x) := rfl

theorem pure_eq (a : α) : (pure a : Checked ε α) = safely (.ok a) := rfl

@[simp] theorem safely_ok_bind (a : α) (next : α → Checked ε β) :
    safely (.ok a) >>= next = next a := rfl

/-- A list of steps that are safe is gone through safely. -/
theorem mapM_eq {f : α → Checked ε β} {g : α → Except ε β} (h : ∀ a, f a = safely (g a))
    (as : List α) : as.mapM f = safely (as.mapM g) := by
  induction as with
  | nil => rfl
  | cons a as ih =>
    rw [List.mapM_cons, List.mapM_cons, h, ih]
    cases g a with
    | error e => rfl
    | ok b => cases as.mapM g <;> rfl

end Checked

open Checked

variable {ε : Type} {bytes : Bytes} {place : Nat} {byte : UInt8}

/-! ## Bytes and registers -/

/-- The byte at an index. -/
def byteAt (bytes : Bytes) (place : Nat) : Checked ε UInt8 :=
  match bytes[place]? with
  | some byte => pure byte
  | none => breach (.index place bytes.length)

theorem byteAt_eq (h : bytes[place]? = some byte) :
    (byteAt bytes place : Checked ε UInt8) = safely (.ok byte) := by
  rw [byteAt, h]
  rfl

/-- The word that bytes start with. -/
def wordIn (bytes : Bytes) : Checked ε UInt16 := do
  return Bytes.word (← byteAt bytes 0) (← byteAt bytes 1)

/-- The number that bytes start with. -/
def numberIn (bytes : Bytes) : Checked ε Nat := do
  return Bytes.doubleWord (← byteAt bytes 0) (← byteAt bytes 1) (← byteAt bytes 2)
    (← byteAt bytes 3)

/-- The bytes from `start` up to `stop`, if they are all there. -/
def slice? (bytes : Bytes) (start stop : Nat) : Option Bytes :=
  if start ≤ stop ∧ stop ≤ bytes.length then some ((bytes.drop start).take (stop - start)) else none

theorem splitAt?_eq_none_iff {count : Nat} :
    Bytes.splitAt? count bytes = none ↔ bytes.length < count := by
  rcases hsplit : Bytes.splitAt? count bytes with _ | ⟨front, back⟩
  · refine ⟨fun _ => ?_, fun _ => rfl⟩
    by_contra hle
    have hlength : (bytes.take count).length = count := by
      rw [List.length_take]
      omega
    have hsome := Bytes.splitAt?_append (bytes.take count) (bytes.drop count)
    rw [List.take_append_drop, hlength, hsplit] at hsome
    cases hsome
  · have hlength := Bytes.length_of_splitAt? hsplit
    refine ⟨nofun, fun hlt => ?_⟩
    omega

/-- Bytes from a place on are those at the front of what stands there. -/
theorem slice?_add {count : Nat} (h : place ≤ bytes.length ∨ 0 < count) :
    slice? bytes place (place + count)
      = (Bytes.splitAt? count (bytes.drop place)).map (·.1) := by
  unfold slice?
  rw [Nat.add_sub_cancel_left]
  rcases hsplit : Bytes.splitAt? count (bytes.drop place) with _ | ⟨front, back⟩
  · have hlength := splitAt?_eq_none_iff.mp hsplit
    rw [List.length_drop] at hlength
    rw [if_neg (by omega)]
    rfl
  · have hlength := Bytes.length_of_splitAt? hsplit
    rw [List.length_drop] at hlength
    obtain ⟨heq, rfl⟩ := Bytes.splitAt?_eq_some_iff.mp hsplit
    rw [if_pos (by omega), heq, List.take_left]
    rfl

/-- A number that a register of 64 bits holds. -/
def fits (value : Nat) : Checked ε Nat :=
  if value < 0x10000000000000000 then pure value else breach (.overflow value)

theorem fits_eq {value : Nat} (h : value < 0x10000000000000000) :
    (fits value : Checked ε Nat) = safely (.ok value) := by
  rw [fits, if_pos h]
  rfl

end AccessTransformer.InPlace
