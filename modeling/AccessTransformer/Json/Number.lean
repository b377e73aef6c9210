import AccessTransformer.Json.Fault

/-!
# Numbers in JSON texts

A number is a minus sign if it is negative, a whole part without superfluous zeros, a fraction and
an exponent.  The only numbers with a meaning here are sets of access flags, and those are written
as a whole part alone; every other number is read only to be passed over.

A number that no double can hold is refused all the same.  How large it is gets estimated the way
the number is read, digit by digit into 64 bits: a digit of the whole part that no longer fits
counts as a factor of ten, and so does every digit of the whole part behind it, while a fraction
ends at the digit that does not fit.

* `Number.scan`: the number at the start of a text, and the text behind it.
-/

namespace AccessTransformer.Json

/-- A number, as far as it has a meaning. -/
inductive Number where
  /-- A whole number without a sign. -/
  | natural (n : Nat)
  /-- A number with a sign, a fraction or an exponent. -/
  | other
  deriving DecidableEq, Repr

namespace Number

/-! ## Digits -/

/-- The number that decimal digits write. -/
def ofDigits (digits : List Char) : Nat :=
  digits.foldl (fun n digit => n * 10 + (digit.toNat - '0'.toNat)) 0

/-- The digits that start a text. -/
def digits (text : List Char) : List Char := text.takeWhile Char.isDigit

/-- The text behind the digits that start it. -/
def behindDigits (text : List Char) : List Char := text.dropWhile Char.isDigit

/-- At least one digit, and the text behind the digits. -/
def digits? (text : List Char) : Except Fault (List Char × List Char) :=
  if digits text = [] then
    .error (if text = [] then .truncated else .malformed)
  else .ok (digits text, behindDigits text)

/-- The whole part of a number, which starts with a zero only if it is zero. -/
def whole : List Char → Except Fault (List Char × List Char)
  | '0' :: text => if digits text = [] then .ok (['0'], text) else .error .malformed
  | text => digits? text

/-- The digits of the fraction, and none if there is no fraction. -/
def fraction : List Char → Except Fault (List Char × List Char)
  | '.' :: text => digits? text
  | text => .ok ([], text)

/-- The exponent behind its letter. -/
def signedExponent : List Char → Except Fault (Int × List Char)
  | '+' :: text => (digits? text).map fun part => ((ofDigits part.1 : Int), part.2)
  | '-' :: text => (digits? text).map fun part => (-(ofDigits part.1 : Int), part.2)
  | text => (digits? text).map fun part => ((ofDigits part.1 : Int), part.2)

/-- The exponent, if there is one. -/
def exponent : List Char → Except Fault (Option Int × List Char)
  | 'e' :: text => (signedExponent text).map fun part => (some part.1, part.2)
  | 'E' :: text => (signedExponent text).map fun part => (some part.1, part.2)
  | text => .ok (none, text)

/-! ## Magnitude -/

/-- The number `significand · 10 ^ exponent`. -/
structure Magnitude where
  significand : Nat
  exponent : Int

/-- Whether a significand with one more digit fits into 64 bits. -/
def Fits (significand digit : Nat) : Prop := significand * 10 + digit < 0x10000000000000000

instance (significand digit : Nat) : Decidable (Fits significand digit) :=
  inferInstanceAs (Decidable (significand * 10 + digit < 0x10000000000000000))

/-- The magnitude with the digits of a whole part behind it. -/
def appendWhole (magnitude : Magnitude) : List Char → Magnitude
  | [] => magnitude
  | digit :: digits =>
    let value := digit.toNat - '0'.toNat
    if Fits magnitude.significand value then
      appendWhole { magnitude with significand := magnitude.significand * 10 + value } digits
    else { magnitude with exponent := digits.length + 1 }

/-- The magnitude with the digits of a fraction behind it. -/
def appendFraction (magnitude : Magnitude) : List Char → Magnitude
  | [] => magnitude
  | digit :: digits =>
    let value := digit.toNat - '0'.toNat
    if Fits magnitude.significand value then
      appendFraction ⟨magnitude.significand * 10 + value, magnitude.exponent - 1⟩ digits
    else magnitude

/-- The multiple of a power of two that is nearest to a number and has 53 digits in base two, the
even one of two. -/
def roundToDouble (n : Nat) : Nat :=
  let unit := Nat.pow 2 (Nat.log2 n + 1 - 53)
  let quotient := n / unit
  let remainder := n % unit
  if unit < 2 * remainder ∨ (2 * remainder = unit ∧ quotient % 2 = 1) then (quotient + 1) * unit
  else quotient * unit

/-- Whether a double cannot hold the magnitude, with the power of ten and the product rounded. -/
def Magnitude.overflows (magnitude : Magnitude) : Bool :=
  if magnitude.significand = 0 ∨ magnitude.exponent < 0 then false
  else if 308 < magnitude.exponent then true
  else decide (Nat.pow 2 1024 - Nat.pow 2 970 ≤
    roundToDouble magnitude.significand * roundToDouble (Nat.pow 10 magnitude.exponent.toNat))

/-- The magnitude of the number with the given parts. -/
def magnitude (whole fraction : List Char) (exponent : Option Int) : Magnitude :=
  let written := appendFraction (appendWhole ⟨0, 0⟩ whole) fraction
  { written with exponent := written.exponent + exponent.getD 0 }

/-! ## Reading -/

/-- The number without its sign, and the text behind it. -/
def unsigned (text : List Char) : Except Fault (Number × List Char) := do
  let (whole, text) ← whole text
  let (fraction, text) ← fraction text
  let (exponent, text) ← exponent text
  if (magnitude whole fraction exponent).overflows then .error .malformed
  else if fraction = [] ∧ exponent = none then return (.natural (ofDigits whole), text)
  else return (.other, text)

/-- The number at the start of a text, and the text behind it. -/
def scan : List Char → Except Fault (Number × List Char)
  | '-' :: text => (unsigned text).map fun part => (.other, part.2)
  | text => unsigned text

/-! ### Reading goes forward -/

theorem digits?_length {text found rest : List Char} (h : digits? text = .ok (found, rest)) :
    rest.length < text.length := by
  unfold digits? at h
  split at h
  · cases h
  · rename_i hdigits
    simp only [Except.ok.injEq, Prod.mk.injEq] at h
    obtain ⟨-, rfl⟩ := h
    have hsplit := congrArg List.length (List.takeWhile_append_dropWhile (p := Char.isDigit)
      (l := text))
    have hpos : 0 < (digits text).length := List.length_pos_iff.2 hdigits
    simp only [List.length_append] at hsplit
    simp only [digits, behindDigits] at *
    omega

theorem whole_length {text found rest : List Char} (h : whole text = .ok (found, rest)) :
    rest.length < text.length := by
  unfold whole at h
  split at h
  · split at h
    · simp only [Except.ok.injEq, Prod.mk.injEq] at h
      obtain ⟨-, rfl⟩ := h
      simp
    · cases h
  · exact digits?_length h

theorem fraction_length {text found rest : List Char} (h : fraction text = .ok (found, rest)) :
    rest.length ≤ text.length := by
  unfold fraction at h
  split at h
  · have := digits?_length h
    simp only [List.length_cons]
    omega
  · simp only [Except.ok.injEq, Prod.mk.injEq] at h
    obtain ⟨-, rfl⟩ := h
    exact Nat.le_refl _

theorem signedExponent_length {text rest : List Char} {n : Int}
    (h : signedExponent text = .ok (n, rest)) : rest.length < text.length := by
  unfold signedExponent at h
  split at h
  · obtain ⟨part, hpart, rfl⟩ := exists_of_map_ok h
    have := digits?_length (hpart.trans rfl)
    simp only [List.length_cons]
    omega
  · obtain ⟨part, hpart, rfl⟩ := exists_of_map_ok h
    have := digits?_length (hpart.trans rfl)
    simp only [List.length_cons]
    omega
  · obtain ⟨part, hpart, rfl⟩ := exists_of_map_ok h
    exact digits?_length (hpart.trans rfl)

theorem exponent_length {text rest : List Char} {n : Option Int}
    (h : exponent text = .ok (n, rest)) : rest.length ≤ text.length := by
  unfold exponent at h
  split at h
  · obtain ⟨part, hpart, rfl⟩ := exists_of_map_ok h
    have := signedExponent_length (hpart.trans rfl)
    simp only [List.length_cons]
    omega
  · obtain ⟨part, hpart, rfl⟩ := exists_of_map_ok h
    have := signedExponent_length (hpart.trans rfl)
    simp only [List.length_cons]
    omega
  · simp only [Except.ok.injEq, Prod.mk.injEq] at h
    obtain ⟨-, rfl⟩ := h
    exact Nat.le_refl _

theorem unsigned_length {text rest : List Char} {number : Number}
    (h : unsigned text = .ok (number, rest)) : rest.length < text.length := by
  unfold unsigned at h
  cases hwhole : whole text with
  | error fault => simp [hwhole, bind, Except.bind] at h
  | ok first =>
    have h1 := whole_length (hwhole.trans rfl)
    cases hfraction : fraction first.2 with
    | error fault => simp [hwhole, hfraction, bind, Except.bind] at h
    | ok second =>
      have h2 := fraction_length (hfraction.trans rfl)
      cases hexponent : exponent second.2 with
      | error fault => simp [hwhole, hfraction, hexponent, bind, Except.bind] at h
      | ok third =>
        have h3 := exponent_length (hexponent.trans rfl)
        simp only [hwhole, hfraction, hexponent, bind, Except.bind, pure, Except.pure] at h
        split at h
        · cases h
        · split at h <;>
          · simp only [Except.ok.injEq, Prod.mk.injEq] at h
            obtain ⟨-, rfl⟩ := h
            omega

theorem scan_length {text rest : List Char} {number : Number}
    (h : scan text = .ok (number, rest)) : rest.length < text.length := by
  unfold scan at h
  split at h
  · obtain ⟨part, hpart, rfl⟩ := exists_of_map_ok h
    have := unsigned_length (hpart.trans rfl)
    simp only [List.length_cons]
    omega
  · exact unsigned_length h

end Number

end AccessTransformer.Json
