/-!
# Byte strings

Class files are sequences of bytes with every number written high byte first.  This module holds
the two words that occur everywhere, and the one way in which a reader takes bytes: exactly as
many as it asked for, or none.

* `Bytes.splitAt?_eq_some_iff`: a split succeeds exactly when the bytes are there, and loses none.
-/

namespace AccessTransformer

/-- A sequence of bytes. -/
abbrev Bytes := List UInt8

namespace Bytes

/-- The 16-bit word with the given high and low byte. -/
def word (high low : UInt8) : UInt16 :=
  UInt16.ofNat (high.toNat * 256 + low.toNat)

/-- The unsigned number written by four bytes. -/
def doubleWord (a b c d : UInt8) : Nat :=
  ((a.toNat * 256 + b.toNat) * 256 + c.toNat) * 256 + d.toNat

/-- The two's complement number written by four bytes. -/
def signedDoubleWord (a b c d : UInt8) : Int :=
  Int.bmod (doubleWord a b c d) 0x100000000

/-- The first `n` bytes and those after them, if there are `n`. -/
def splitAt? : Nat → Bytes → Option (Bytes × Bytes)
  | 0, bytes => some ([], bytes)
  | _ + 1, [] => none
  | n + 1, byte :: bytes => (splitAt? n bytes).map fun parts => (byte :: parts.1, parts.2)

@[simp] theorem splitAt?_zero (bytes : Bytes) : splitAt? 0 bytes = some ([], bytes) := by
  simp only [splitAt?]

theorem splitAt?_eq_some_iff {n : Nat} {bytes front back : Bytes} :
    splitAt? n bytes = some (front, back) ↔ bytes = front ++ back ∧ front.length = n := by
  induction n generalizing bytes front with
  | zero =>
    simp only [splitAt?_zero, Option.some.injEq, Prod.mk.injEq, List.length_eq_zero_iff]
    constructor
    · rintro ⟨rfl, rfl⟩; simp
    · rintro ⟨h, rfl⟩; simpa using h
  | succ n ih =>
    cases bytes with
    | nil =>
      simp only [splitAt?, reduceCtorEq, false_iff, not_and]
      intro h
      have := congrArg List.length h
      simp only [List.length_nil, List.length_append] at this
      omega
    | cons byte bytes =>
      simp only [splitAt?, Option.map_eq_some_iff, Prod.mk.injEq, Prod.exists]
      constructor
      · rintro ⟨front', back', h, rfl, rfl⟩
        obtain ⟨rfl, rfl⟩ := ih.1 h
        simp
      · rintro ⟨h, hn⟩
        cases front with
        | nil => simp at hn
        | cons byte' front =>
          simp only [List.cons_append, List.cons.injEq] at h
          obtain ⟨rfl, rfl⟩ := h
          exact ⟨front, back, ih.2 ⟨rfl, by simpa using hn⟩, rfl, rfl⟩

theorem splitAt?_append (front back : Bytes) :
    splitAt? front.length (front ++ back) = some (front, back) :=
  splitAt?_eq_some_iff.2 ⟨rfl, rfl⟩

theorem length_of_splitAt? {n : Nat} {bytes front back : Bytes}
    (h : splitAt? n bytes = some (front, back)) : bytes.length = n + back.length := by
  obtain ⟨rfl, rfl⟩ := splitAt?_eq_some_iff.1 h
  simp

/-- A number in two lower-case hexadecimal digits. -/
def hexByte (byte : UInt8) : String :=
  String.ofList [Nat.digitChar (byte.toNat / 16), Nat.digitChar (byte.toNat % 16)]

end Bytes

end AccessTransformer
