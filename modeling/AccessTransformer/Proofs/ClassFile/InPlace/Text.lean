import AccessTransformer.ClassFile.ModifiedUtf8
import AccessTransformer.Proofs.ClassFile.InPlace.Checked
import Mathlib.Tactic.SplitIfs

/-!
# Decoding texts in place

The bytes of a text constant can be decoded with an index that goes up by one, two or three, where a
continuation byte is looked for behind the index and may be missing, but the first byte of a unit is
taken to be there.

* `decode_eq`: the first byte is always there, and the text is that of `ModifiedUtf8.decode`.
-/

namespace AccessTransformer.InPlace

open ModifiedUtf8 Checked

/-- The bits of the continuation byte that is so far behind an index. -/
def continuationAt (bytes : Bytes) (index distance : Nat) : Checked Fault Nat :=
  match bytes[index + distance]?.bind Utf8.continuation? with
  | some bits => pure bits
  | none => throw (.malformed index)

/-- The code units spelled from an index on. -/
def unitsFrom (bytes : Bytes) (index : Nat) : Checked Fault (List Nat) :=
  if index < bytes.length then do
    let first ← byteAt bytes index
    if 1 ≤ first.toNat ∧ first.toNat < 0x80 then
      return first.toNat :: (← unitsFrom bytes (index + 1))
    else if first.toNat / 32 = 6 then
      let low ← continuationAt bytes index 1
      let unit := first.toNat % 32 * 64 + low
      if unit ≠ 0 ∧ unit < 0x80 then throw (.overlong index)
      else return unit :: (← unitsFrom bytes (index + 2))
    else if first.toNat / 16 = 14 then
      let middle ← continuationAt bytes index 1
      let low ← continuationAt bytes index 2
      let unit := first.toNat % 16 * 4096 + middle * 64 + low
      if unit < 0x800 then throw (.overlong index)
      else return unit :: (← unitsFrom bytes (index + 3))
    else throw (.invalidByte first index)
  else pure []
termination_by bytes.length - index

/-- The text written by bytes. -/
def decode (bytes : Bytes) : Checked Fault String := do
  match Utf16.chars? (← unitsFrom bytes 0) with
  | some chars => return String.ofList chars
  | none => throw .unpairedSurrogate

variable {bytes : Bytes} {index : Nat}

/-- A continuation byte is looked for among the bytes behind the index. -/
theorem continuationAt_eq (bytes : Bytes) (index distance : Nat) :
    continuationAt bytes index distance
      = safely (match (bytes.drop index)[distance]?.bind Utf8.continuation? with
        | some bits => .ok bits
        | none => .error (.malformed index)) := by
  rw [continuationAt, List.getElem?_drop]
  cases bytes[index + distance]?.bind Utf8.continuation? <;> rfl

/-- What stands behind the bytes that are looked at. -/
theorem drop_add_of_drop (front : Bytes) {rest : Bytes} (h : bytes.drop index = front ++ rest) :
    bytes.drop (index + front.length) = rest := by
  rw [← List.drop_drop, h, List.drop_left]

/-- **The units are read in place as they are from the front.** -/
theorem unitsFrom_eq (bytes : Bytes) (index : Nat) :
    unitsFrom bytes index = safely (units index (bytes.drop index)) := by
  induction hleft : bytes.length - index using Nat.strongRecOn generalizing index with
  | ind left ih =>
    rw [unitsFrom]
    rcases hdrop : bytes.drop index with _ | ⟨first, rest⟩
    · rw [if_neg (Nat.not_lt.mpr (List.drop_eq_nil_iff.mp hdrop)), units]
      rfl
    have hthere : index < bytes.length := by
      by_contra hbehind
      rw [List.drop_eq_nil_of_le (Nat.not_lt.mp hbehind)] at hdrop
      cases hdrop
    have hfirst : bytes[index]? = some first := by
      rw [← List.head?_drop, hdrop]
      rfl
    rw [if_pos hthere, byteAt_eq hfirst, safely_ok_bind, units.eq_def]
    dsimp only
    split_ifs with hone htwo hthree
    · have hrest : bytes.drop (index + 1) = rest := drop_add_of_drop [first] hdrop
      rw [ih _ (by omega) (index + 1) rfl, hrest]
      cases units (index + 1) rest <;> rfl
    · rw [continuationAt_eq, hdrop]
      rcases rest with _ | ⟨second, rest⟩
      · rfl
      · dsimp only [List.getElem?_cons_succ, List.getElem?_cons_zero, Option.bind_some]
        cases Utf8.continuation? second with
        | none => rfl
        | some low =>
          dsimp only
          rw [safely_ok_bind]
          split_ifs
          · rfl
          · have hrest : bytes.drop (index + 2) = rest := drop_add_of_drop [first, second] hdrop
            rw [ih _ (by omega) (index + 2) rfl, hrest]
            cases units (index + 2) rest <;> rfl
    · rw [continuationAt_eq, continuationAt_eq, hdrop]
      rcases rest with _ | ⟨second, _ | ⟨third, rest⟩⟩
      · rfl
      · dsimp only [List.getElem?_cons_succ, List.getElem?_cons_zero, Option.bind_some]
        cases Utf8.continuation? second <;> rfl
      · dsimp only [List.getElem?_cons_succ, List.getElem?_cons_zero, Option.bind_some]
        cases Utf8.continuation? second with
        | none => rfl
        | some middle =>
          cases Utf8.continuation? third with
          | none => rfl
          | some low =>
            dsimp only
            rw [safely_ok_bind, safely_ok_bind]
            split_ifs
            · rfl
            · have hrest : bytes.drop (index + 3) = rest :=
                drop_add_of_drop [first, second, third] hdrop
              rw [ih _ (by omega) (index + 3) rfl, hrest]
              cases units (index + 3) rest <;> rfl
    · rfl

/-- **A text is decoded in place as it is from the front.** -/
theorem decode_eq (bytes : Bytes) : decode bytes = safely (ModifiedUtf8.decode bytes) := by
  rw [decode, unitsFrom_eq, List.drop_zero, ModifiedUtf8.decode]
  cases units 0 bytes with
  | error fault => rfl
  | ok codes =>
    rw [safely_ok_bind]
    show _ = safely (match Utf16.chars? codes with | some chars => _ | none => _)
    cases Utf16.chars? codes <;> rfl

end AccessTransformer.InPlace
