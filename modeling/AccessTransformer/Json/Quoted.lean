import AccessTransformer.Json.Fault
import AccessTransformer.Text.Unicode

/-!
# Quoted texts in JSON

A string stands between quotes.  Inside it a quote and a backslash are escaped, and so are the
characters below the space, five of them by a letter of their own and the others by four
hexadecimal digits.  Everything else stands for itself.

Reading is more liberal: a slash may be escaped too, and any code unit of sixteen bits may be
written by its digits, where the two halves of a pair have to follow each other.

* `Quoted.encode`: the text of a string with its quotes.
* `Quoted.scan`: the string behind an opening quote, and the text behind its closing one.
-/

namespace AccessTransformer.Json.Quoted

/-! ## Writing -/

/-- The letter that escapes a character behind a backslash. -/
def letter? (c : Char) : Option Char :=
  if c = '"' then some '"'
  else if c = '\\' then some '\\'
  else if c = '\x08' then some 'b'
  else if c = '\t' then some 't'
  else if c = '\n' then some 'n'
  else if c = '\x0c' then some 'f'
  else if c = '\r' then some 'r'
  else none

/-- A character as it stands between quotes. -/
def encodeChar (c : Char) : List Char :=
  match letter? c with
  | some letter => ['\\', letter]
  | none =>
    if c.toNat < 0x20 then
      ['\\', 'u', '0', '0', Nat.digitChar (c.toNat / 16), Nat.digitChar (c.toNat % 16)]
    else [c]

/-- A text between quotes. -/
def encode (text : List Char) : List Char :=
  '"' :: text.flatMap encodeChar ++ ['"']

/-! ## Reading -/

/-- The value of a hexadecimal digit. -/
def hexDigit? (c : Char) : Option Nat :=
  if '0' ≤ c ∧ c ≤ '9' then some (c.toNat - '0'.toNat)
  else if 'a' ≤ c ∧ c ≤ 'f' then some (c.toNat - 'a'.toNat + 10)
  else if 'A' ≤ c ∧ c ≤ 'F' then some (c.toNat - 'A'.toNat + 10)
  else none

/-- The number of bytes that a text takes in UTF-8. -/
def byteLength : List Char → Nat
  | [] => 0
  | c :: text => c.utf8Size + byteLength text

/-- A code unit in four hexadecimal digits, and the text behind it.  The text is truncated if not
even four bytes are left. -/
def unit : List Char → Except Fault (Nat × List Char)
  | a :: b :: c :: d :: text =>
    match hexDigit? a, hexDigit? b, hexDigit? c, hexDigit? d with
    | some a, some b, some c, some d => .ok (((a * 16 + b) * 16 + c) * 16 + d, text)
    | _, _, _, _ => .error .malformed
  | text => .error (if byteLength text < 4 then .truncated else .malformed)

/-- The second half of the pair that starts with the given half. -/
def secondHalf (high : Nat) : List Char → Except Fault (Char × List Char)
  | [] | ['\\'] => .error .truncated
  | '\\' :: 'u' :: text =>
    match unit text with
    | .error fault => .error fault
    | .ok (low, text) =>
      if Utf16.IsLow low then .ok (Utf16.pair high low, text) else .error .malformed
  | _ => .error .malformed

/-- The character that is written by its code units, behind the letter that says so. -/
def numbered (text : List Char) : Except Fault (Char × List Char) :=
  match unit text with
  | .error fault => .error fault
  | .ok (first, text) =>
    if Utf16.IsLow first then .error .malformed
    else if Utf16.IsHigh first then secondHalf first text
    else .ok (Char.ofNat first, text)

/-- The character that a letter behind a backslash stands for. -/
def escaped? (letter : Char) : Option Char :=
  if letter = '"' then some '"'
  else if letter = '\\' then some '\\'
  else if letter = '/' then some '/'
  else if letter = 'b' then some '\x08'
  else if letter = 'f' then some '\x0c'
  else if letter = 'n' then some '\n'
  else if letter = 'r' then some '\r'
  else if letter = 't' then some '\t'
  else none

/-- The character behind a backslash. -/
def escape : List Char → Except Fault (Char × List Char)
  | [] => .error .truncated
  | 'u' :: text => numbered text
  | letter :: text =>
    match escaped? letter with
    | some c => .ok (c, text)
    | none => .error .malformed

/-! ### Reading goes forward -/

theorem unit_length {text rest : List Char} {n : Nat} (h : unit text = .ok (n, rest)) :
    rest.length < text.length := by
  unfold unit at h
  split at h
  · split at h
    · simp only [Except.ok.injEq, Prod.mk.injEq] at h
      obtain ⟨-, rfl⟩ := h
      simp only [List.length_cons]
      omega
    · cases h
  · cases h

theorem secondHalf_length {high : Nat} {text rest : List Char} {c : Char}
    (h : secondHalf high text = .ok (c, rest)) : rest.length < text.length := by
  unfold secondHalf at h
  split at h
  · cases h
  · cases h
  · split at h
    · cases h
    · rename_i hunit
      split at h
      · simp only [Except.ok.injEq, Prod.mk.injEq] at h
        obtain ⟨-, rfl⟩ := h
        have := unit_length hunit
        simp only [List.length_cons]
        omega
      · cases h
  · cases h

theorem numbered_length {text rest : List Char} {c : Char}
    (h : numbered text = .ok (c, rest)) : rest.length < text.length := by
  unfold numbered at h
  split at h
  · cases h
  · rename_i hunit
    have hlt := unit_length hunit
    split at h
    · cases h
    · split at h
      · exact Nat.lt_trans (secondHalf_length h) hlt
      · simp only [Except.ok.injEq, Prod.mk.injEq] at h
        obtain ⟨-, rfl⟩ := h
        exact hlt

theorem escape_length {text rest : List Char} {c : Char}
    (h : escape text = .ok (c, rest)) : rest.length < text.length := by
  unfold escape at h
  split at h
  · cases h
  · have := numbered_length h
    simp only [List.length_cons]
    omega
  · split at h
    · simp only [Except.ok.injEq, Prod.mk.injEq] at h
      obtain ⟨-, rfl⟩ := h
      simp
    · cases h

/-- The text in front of the closing quote, and the text behind it. -/
def scan : List Char → Except Fault (List Char × List Char)
  | [] => .error .truncated
  | '"' :: text => .ok ([], text)
  | '\\' :: text =>
    match h : escape text with
    | .error fault => .error fault
    | .ok (c, rest) =>
      have := escape_length h
      (scan rest).map fun part => (c :: part.1, part.2)
  | c :: text =>
    if c.toNat < 0x20 then .error .malformed
    else (scan text).map fun part => (c :: part.1, part.2)
termination_by text => text.length
decreasing_by
  · simp only [List.length_cons]
    omega
  · simp

theorem scan_length {text found rest : List Char} (h : scan text = .ok (found, rest)) :
    rest.length < text.length := by
  fun_induction scan text generalizing found with
  | case1 => cases h
  | case2 text =>
    simp only [Except.ok.injEq, Prod.mk.injEq] at h
    rw [h.2]
    simp
  | case3 => cases h
  | case4 text c rest' hescape hlt ih =>
    obtain ⟨part, hpart, rfl⟩ := exists_of_map_ok h
    have hrest := ih (hpart.trans rfl)
    simp only [List.length_cons]
    omega
  | case5 => cases h
  | case6 c text _ _ _ ih =>
    obtain ⟨part, hpart, rfl⟩ := exists_of_map_ok h
    have hrest := ih (hpart.trans rfl)
    simp only [List.length_cons]
    omega

end AccessTransformer.Json.Quoted
