import AccessTransformer.Json.Quoted
import Mathlib.Tactic.SplitIfs

/-!
# Quoted texts are read back

What stands between the quotes of a written text is made of one piece for each character: a
backslash and a letter, a backslash and a code unit, or the character itself.  Reading such a piece
gives the character and leaves what stands behind it, whatever that is, so a text is read back
character by character until its closing quote.
-/

namespace AccessTransformer.Json.Quoted

/-! ## Escapes -/

theorem hexDigit?_digitChar {n : Nat} (h : n < 16) : hexDigit? (Nat.digitChar n) = some n := by
  decide +revert

/-- A letter behind a backslash is read as the character that it escapes. -/
theorem escape_letter {c letter : Char} (h : letter? c = some letter) (rest : List Char) :
    escape (letter :: rest) = .ok (c, rest) := by
  unfold letter? at h
  split_ifs at h <;>
  · obtain rfl := Option.some.inj h
    subst c
    rfl

/-- A control character is read back from its code unit. -/
theorem escape_unit {c : Char} (h : c.toNat < 0x20) (rest : List Char) :
    escape ('u' :: '0' :: '0' :: Nat.digitChar (c.toNat / 16)
      :: Nat.digitChar (c.toNat % 16) :: rest) = .ok (c, rest) := by
  have hunit : unit ('0' :: '0' :: Nat.digitChar (c.toNat / 16)
      :: Nat.digitChar (c.toNat % 16) :: rest) = .ok (c.toNat, rest) := by
    rw [unit, hexDigit?_digitChar (by omega), hexDigit?_digitChar (by omega)]
    show Except.ok (((0 * 16 + 0) * 16 + c.toNat / 16) * 16 + c.toNat % 16, rest) = _
    rw [show ((0 * 16 + 0) * 16 + c.toNat / 16) * 16 + c.toNat % 16 = c.toNat by omega]
  have hlow : ¬Utf16.IsLow c.toNat := by
    unfold Utf16.IsLow
    omega
  have hhigh : ¬Utf16.IsHigh c.toNat := by
    unfold Utf16.IsHigh
    omega
  rw [escape, numbered, hunit]
  simp only [if_neg hlow, if_neg hhigh, Char.ofNat_toNat]

/-! ## Texts -/

/-- What stands behind a backslash decides how reading goes on. -/
theorem scan_backslash {c : Char} {text rest : List Char} (h : escape text = .ok (c, rest)) :
    scan ('\\' :: text) = (scan rest).map fun part => (c :: part.1, part.2) := by
  rw [scan]
  split
  · rename_i heq
    cases heq.symm.trans h
  · rename_i heq
    cases heq.symm.trans h
    rfl

/-- The piece of a character is read as this character. -/
theorem scan_encodeChar_append (c : Char) (rest : List Char) :
    scan (encodeChar c ++ rest) = (scan rest).map fun part => (c :: part.1, part.2) := by
  unfold encodeChar
  split
  · rename_i letter hletter
    exact scan_backslash (escape_letter hletter rest)
  · rename_i hletter
    split
    · rename_i hcontrol
      exact scan_backslash (escape_unit hcontrol rest)
    · rename_i hcontrol
      rw [List.singleton_append, scan, if_neg hcontrol]
      · rintro rfl
        cases hletter
      · rintro rfl
        cases hletter

/-- **A written text is read back, and what stands behind it is left.** -/
theorem scan_flatMap_encodeChar (text rest : List Char) :
    scan (text.flatMap encodeChar ++ '"' :: rest) = .ok (text, rest) := by
  induction text with
  | nil => rw [List.flatMap_nil, List.nil_append, scan]
  | cons c text ih =>
    rw [List.flatMap_cons, List.append_assoc, scan_encodeChar_append, ih]
    rfl

end AccessTransformer.Json.Quoted
