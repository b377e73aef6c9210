import AccessTransformer.Bytes

/-!
# Encodings of Unicode texts

Two ways to write characters: as code units of sixteen bits, of which characters beyond the basic
plane take two, and as UTF-8.  Both are read strictly.  UTF-8 has one spelling for each character,
and none for the halves of a pair.

* `Utf16.chars?`: the characters of a sequence of code units.
* `Utf8.decode?`: the characters of a sequence of bytes.
-/

namespace AccessTransformer

/-! ## Code units -/

namespace Utf16

/-- Whether a code unit is the first half of a pair. -/
def IsHigh (unit : Nat) : Prop := 0xD800 ≤ unit ∧ unit ≤ 0xDBFF

/-- Whether a code unit is the second half of a pair. -/
def IsLow (unit : Nat) : Prop := 0xDC00 ≤ unit ∧ unit ≤ 0xDFFF

instance (unit : Nat) : Decidable (IsHigh unit) :=
  inferInstanceAs (Decidable (0xD800 ≤ unit ∧ unit ≤ 0xDBFF))

instance (unit : Nat) : Decidable (IsLow unit) :=
  inferInstanceAs (Decidable (0xDC00 ≤ unit ∧ unit ≤ 0xDFFF))

/-- The character that a pair of halves stands for. -/
def pair (high low : Nat) : Char :=
  Char.ofNat (0x10000 + (high - 0xD800) * 0x400 + (low - 0xDC00))

/-- The characters of a sequence of code units, if every half of a pair has its partner. -/
def chars? : List Nat → Option (List Char)
  | [] => some []
  | [unit] => if IsHigh unit ∨ IsLow unit then none else some [Char.ofNat unit]
  | unit :: next :: units =>
    if IsHigh unit then
      if IsLow next then (chars? units).map (pair unit next :: ·) else none
    else if IsLow unit then none
    else (chars? (next :: units)).map (Char.ofNat unit :: ·)

end Utf16

namespace Utf8

/-! ## Bytes -/

/-- The six bits that a continuation byte carries. -/
def continuation? (byte : UInt8) : Option Nat :=
  if byte.toNat / 64 = 2 then some (byte.toNat % 64) else none

/-- Whether a number of more than one byte is a character that needs as many bytes. -/
def IsScalar (least code : Nat) : Prop :=
  least ≤ code ∧ code < 0x110000 ∧ ¬Utf16.IsHigh code ∧ ¬Utf16.IsLow code

instance (least code : Nat) : Decidable (IsScalar least code) :=
  inferInstanceAs (Decidable (least ≤ code ∧ code < 0x110000 ∧ ¬Utf16.IsHigh code ∧
    ¬Utf16.IsLow code))

/-- The characters that bytes spell. -/
def decode? : Bytes → Option (List Char)
  | [] => some []
  | first :: bytes =>
    if first.toNat < 0x80 then (decode? bytes).map (Char.ofNat first.toNat :: ·)
    else if first.toNat / 32 = 6 then
      match bytes with
      | second :: bytes => do
        let code := first.toNat % 32 * 64 + (← continuation? second)
        if IsScalar 0x80 code then (decode? bytes).map (Char.ofNat code :: ·) else none
      | [] => none
    else if first.toNat / 16 = 14 then
      match bytes with
      | second :: third :: bytes => do
        let code := first.toNat % 16 * 4096 + (← continuation? second) * 64
          + (← continuation? third)
        if IsScalar 0x800 code then (decode? bytes).map (Char.ofNat code :: ·) else none
      | _ => none
    else if first.toNat / 8 = 30 then
      match bytes with
      | second :: third :: fourth :: bytes => do
        let code := first.toNat % 8 * 262144 + (← continuation? second) * 4096
          + (← continuation? third) * 64 + (← continuation? fourth)
        if IsScalar 0x10000 code then (decode? bytes).map (Char.ofNat code :: ·) else none
      | _ => none
    else none

end Utf8

end AccessTransformer
