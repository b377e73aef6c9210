import AccessTransformer.Json.Number

/-!
# Whole numbers are read back

A whole number is written by its decimal digits, which have no superfluous zero in front.  Behind
them the text has to go on with something that does not go on the number.  A number of up to 53
bits fits into a double as it is, so it does not count as too large.

* `Number.scan_toDigits_append`: the digits of a number are read as this number.
-/

namespace AccessTransformer.Json.Number

/-! ## Digits -/

theorem ofDigits_toDigits (n : Nat) : ofDigits (Nat.toDigits 10 n) = n := by
  have h := @Nat.ofDigitChars_ten_toDigits n
  rw [Nat.ofDigitChars_eq_foldl] at h
  simpa only [ofDigits, Nat.mul_comm] using h

/-- Whether a text does not go on a number. -/
def Ends (rest : List Char) : Prop :=
  ∀ c ∈ rest.head?, c.isDigit = false ∧ c ≠ '.' ∧ c ≠ 'e' ∧ c ≠ 'E'

theorem Ends.digits_eq_nil {rest : List Char} (h : Ends rest) : digits rest = [] := by
  cases rest with
  | nil => rfl
  | cons c rest => rw [digits, List.takeWhile_cons, (h c rfl).1]; rfl

theorem Ends.behindDigits_eq {rest : List Char} (h : Ends rest) : behindDigits rest = rest := by
  cases rest with
  | nil => rfl
  | cons c rest => rw [behindDigits, List.dropWhile_cons, (h c rfl).1]; rfl

theorem isDigit_of_mem_toDigits {n : Nat} : ∀ c ∈ Nat.toDigits 10 n, c.isDigit = true :=
  fun _ => Nat.isDigit_of_mem_toDigits (by decide) (by decide)

theorem digitChar_ne_zero {digit : Nat} (h : digit < 10) (hpos : 0 < digit) :
    digit.digitChar ≠ '0' := by
  decide +revert

/-- Only zero starts with a zero. -/
theorem exists_cons_eq_toDigits {n : Nat} (h : 0 < n) :
    ∃ c digits, Nat.toDigits 10 n = c :: digits ∧ c ≠ '0' := by
  induction n using Nat.strongRecOn with
  | ind n ih =>
    by_cases hsmall : n < 10
    · exact ⟨n.digitChar, [], Nat.toDigits_of_lt_base hsmall, digitChar_ne_zero hsmall h⟩
    · obtain ⟨c, digits, heq, hc⟩ := ih (n / 10) (by omega) (by omega)
      refine ⟨c, digits ++ [(n % 10).digitChar], ?_, hc⟩
      rw [Nat.toDigits_of_base_le (by decide) (by omega), heq, List.cons_append]

variable {n : Nat} {rest : List Char}

theorem digits?_toDigits_append (h : Ends rest) :
    digits? (Nat.toDigits 10 n ++ rest) = .ok (Nat.toDigits 10 n, rest) := by
  have hfound : digits (Nat.toDigits 10 n ++ rest) = Nat.toDigits 10 n := by
    rw [digits, List.takeWhile_append_of_pos isDigit_of_mem_toDigits]
    exact (congrArg _ h.digits_eq_nil).trans (List.append_nil _)
  have hbehind : behindDigits (Nat.toDigits 10 n ++ rest) = rest := by
    rw [behindDigits, List.dropWhile_append_of_pos isDigit_of_mem_toDigits]
    exact h.behindDigits_eq
  rw [digits?, hfound, hbehind, if_neg Nat.toDigits_ne_nil]

theorem whole_toDigits_append (h : Ends rest) :
    whole (Nat.toDigits 10 n ++ rest) = .ok (Nat.toDigits 10 n, rest) := by
  rcases Nat.eq_zero_or_pos n with rfl | hpos
  · rw [Nat.toDigits_zero, List.singleton_append, whole, if_pos h.digits_eq_nil]
  · obtain ⟨c, digits, heq, hc⟩ := exists_cons_eq_toDigits hpos
    have hdigits := digits?_toDigits_append (n := n) h
    rw [heq, List.cons_append] at hdigits ⊢
    rw [whole]
    · exact hdigits
    · rintro text heq
      exact absurd (List.cons.inj heq).1 hc

theorem Ends.fraction_eq (h : Ends rest) : fraction rest = .ok ([], rest) := by
  rw [fraction]
  rintro text rfl
  exact absurd rfl (h '.' rfl).2.1

theorem Ends.exponent_eq (h : Ends rest) : exponent rest = .ok (none, rest) := by
  rw [exponent]
  · rintro text rfl
    exact absurd rfl (h 'e' rfl).2.2.1
  · rintro text rfl
    exact absurd rfl (h 'E' rfl).2.2.2

/-! ## Magnitude -/

/-- Digits that all fit are all kept. -/
theorem appendWhole_eq {significand : Nat} {e : Int} {digits : List Char}
    (h : Nat.ofDigitChars 10 digits significand < 0x10000000000000000) :
    appendWhole ⟨significand, e⟩ digits = ⟨Nat.ofDigitChars 10 digits significand, e⟩ := by
  induction digits generalizing significand with
  | nil => rfl
  | cons digit digits ih =>
    rw [Nat.ofDigitChars_cons] at h ⊢
    have hle : 10 * significand + (digit.toNat - '0'.toNat)
        ≤ Nat.ofDigitChars 10 digits (10 * significand + (digit.toNat - '0'.toNat)) := by
      rw [Nat.ofDigitChars_eq_ofDigitChars_zero]
      exact Nat.le_add_right_of_le (Nat.le_mul_of_pos_left _ (Nat.pow_pos (by decide)))
    have hfits : Fits significand (digit.toNat - '0'.toNat) := by
      unfold Fits
      omega
    rw [appendWhole, if_pos hfits, Nat.mul_comm significand]
    exact ih h

theorem magnitude_toDigits (h : n < Nat.pow 2 53) :
    magnitude (Nat.toDigits 10 n) [] none = ⟨n, 0⟩ := by
  have hvalue := @Nat.ofDigitChars_ten_toDigits n
  rw [magnitude, appendWhole_eq, hvalue]
  · rfl
  · exact hvalue.symm ▸ Nat.lt_trans h (by decide)

/-- A number of up to 53 bits is not rounded. -/
theorem roundToDouble_eq (h : n < Nat.pow 2 53) : roundToDouble n = n := by
  have hlog : Nat.log2 n + 1 - 53 = 0 := by
    rcases Nat.eq_zero_or_pos n with rfl | hpos
    · rfl
    · have := (Nat.log2_lt (Nat.ne_of_gt hpos)).mpr h
      omega
  rw [roundToDouble, hlog]
  simp [Nat.mod_one]

theorem overflows_eq_false (h : n < Nat.pow 2 53) :
    Magnitude.overflows ⟨n, 0⟩ = false := by
  unfold Magnitude.overflows
  split
  · rfl
  · rw [if_neg (show ¬(308 : Int) < 0 by decide), decide_eq_false_iff_not, roundToDouble_eq h]
    show ¬Nat.pow 2 1024 - Nat.pow 2 970 ≤ n * roundToDouble 1
    rw [roundToDouble_eq (by decide), Nat.mul_one, Nat.not_le]
    exact Nat.lt_trans h (by decide +kernel)

/-! ## Numbers -/

/-- **The digits of a number of up to 53 bits are read as this number.** -/
theorem scan_toDigits_append (hn : n < Nat.pow 2 53) (h : Ends rest) :
    scan (Nat.toDigits 10 n ++ rest) = .ok (.natural n, rest) := by
  have hunsigned : unsigned (Nat.toDigits 10 n ++ rest) = .ok (.natural n, rest) := by
    simp only [unsigned, whole_toDigits_append h, h.fraction_eq, h.exponent_eq, bind, Except.bind,
      magnitude_toDigits hn, overflows_eq_false hn, ofDigits_toDigits]
    rfl
  rw [scan]
  · exact hunsigned
  · rintro text heq
    obtain ⟨digit, digits, hdigits⟩ := List.exists_cons_of_ne_nil (@Nat.toDigits_ne_nil n 10)
    rw [hdigits, List.cons_append] at heq
    have hminus : '-' ∈ Nat.toDigits 10 n := by
      rw [hdigits, (List.cons.inj heq).1]
      exact List.mem_cons_self
    exact absurd (isDigit_of_mem_toDigits '-' hminus) (by decide)

end AccessTransformer.Json.Number
