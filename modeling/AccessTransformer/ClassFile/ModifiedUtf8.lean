import AccessTransformer.Bytes
import AccessTransformer.Text.Unicode

/-!
# Modified UTF-8

The text constants of a class file are written in a variant of UTF-8 that encodes UTF-16 code
units one by one: NUL takes the two bytes `C0 80`, so that no byte of a text is zero, and a
character beyond the basic plane takes two three-byte sequences, one for each surrogate.

Every unit has exactly one spelling here.  `decode` therefore refuses a unit that is written with
more bytes than it needs, a zero byte, a sequence that breaks off, and a surrogate without its
partner; what it accepts, it accepts in one spelling only.

Decoding goes in two steps, `units` from bytes to code units and `Utf16.chars?` from code units to
characters, because a spelling fault anywhere in the bytes is reported before any surrogate is
looked at.
-/

namespace AccessTransformer

namespace ModifiedUtf8

/-! ## Spelling -/

/-- Why bytes are not modified UTF-8.  Offsets are those of the first byte of the sequence that
goes wrong. -/
inductive Fault where
  /-- A continuation byte is missing or is none. -/
  | malformed (offset : Nat)
  /-- The unit has a shorter spelling. -/
  | overlong (offset : Nat)
  /-- No sequence starts with this byte. -/
  | invalidByte (byte : UInt8) (offset : Nat)
  /-- Half of a surrogate pair stands alone. -/
  | unpairedSurrogate
  deriving DecidableEq, Repr

/-- The wording of a fault. -/
def Fault.message : Fault → String
  | .malformed offset => s!"malformed modified utf8 at byte {offset}"
  | .overlong offset => s!"overlong modified utf8 at byte {offset}"
  | .invalidByte byte offset =>
    s!"invalid modified utf8 byte 0x{Bytes.hexByte byte} at {offset}"
  | .unpairedSurrogate =>
    "unpaired surrogate in modified utf8: invalid utf-16: lone surrogate found"

/-- The code units spelled by bytes that start `offset` bytes into the text. -/
def units (offset : Nat) : Bytes → Except Fault (List Nat)
  | [] => .ok []
  | first :: bytes =>
    if 1 ≤ first.toNat ∧ first.toNat < 0x80 then do
      return first.toNat :: (← units (offset + 1) bytes)
    else if first.toNat / 32 = 6 then
      match bytes with
      | second :: bytes =>
        match Utf8.continuation? second with
        | some low =>
          let unit := first.toNat % 32 * 64 + low
          if unit ≠ 0 ∧ unit < 0x80 then .error (.overlong offset)
          else do return unit :: (← units (offset + 2) bytes)
        | none => .error (.malformed offset)
      | [] => .error (.malformed offset)
    else if first.toNat / 16 = 14 then
      match bytes with
      | second :: third :: bytes =>
        match Utf8.continuation? second, Utf8.continuation? third with
        | some middle, some low =>
          let unit := first.toNat % 16 * 4096 + middle * 64 + low
          if unit < 0x800 then .error (.overlong offset)
          else do return unit :: (← units (offset + 3) bytes)
        | _, _ => .error (.malformed offset)
      | _ => .error (.malformed offset)
    else .error (.invalidByte first offset)

/-- The text written by the bytes of a constant. -/
def decode (bytes : Bytes) : Except Fault String := do
  match Utf16.chars? (← units 0 bytes) with
  | some chars => .ok (String.ofList chars)
  | none => .error .unpairedSurrogate

end ModifiedUtf8

end AccessTransformer
