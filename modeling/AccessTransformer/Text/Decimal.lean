/-!
# Decimal texts of binary fractions

The shortest decimal text that reads back as a given binary floating-point number, worked out in
whole numbers.  A finite number is `m · 2 ^ q`; the reals that round to it form an interval around
it, with its ends exactly if `m` is even.  For one digit, two digits, and so on, the two decimals
next to the number are tried, and the first that lies in the interval is the text; of two that do,
the nearer.

* `Binary.ofBits`: the number that a bit pattern stands for.
* `Binary.text`: positional between `10 ^ -4` and `10 ^ 16`, and in powers of ten elsewhere.
-/

namespace AccessTransformer

/-- A binary floating-point format: how many bits the fraction and the exponent take. -/
structure BinaryFormat where
  fractionBits : Nat
  exponentBits : Nat

namespace BinaryFormat

/-- The format of 32 bits. -/
def single : BinaryFormat := ⟨23, 8⟩

/-- The format of 64 bits. -/
def double : BinaryFormat := ⟨52, 11⟩

end BinaryFormat

/-- What a bit pattern of a binary format stands for. -/
inductive Binary where
  | notANumber
  | infinity (negative : Bool)
  /-- The number `significand · 2 ^ exponent`.  The next smaller number is half as far as the next
  larger one if `narrowBelow` holds. -/
  | finite (negative : Bool) (significand : Nat) (exponent : Int) (narrowBelow : Bool)
  deriving DecidableEq, Repr

namespace Binary

/-- The meaning of a bit pattern. -/
def ofBits (format : BinaryFormat) (bits : Nat) : Binary :=
  let fraction := bits % Nat.pow 2 format.fractionBits
  let exponent := bits / Nat.pow 2 format.fractionBits % Nat.pow 2 format.exponentBits
  let negative := bits / Nat.pow 2 (format.fractionBits + format.exponentBits) % 2 = 1
  let bias : Int := Nat.pow 2 (format.exponentBits - 1) - 1 + format.fractionBits
  if exponent + 1 = Nat.pow 2 format.exponentBits then
    if fraction = 0 then .infinity negative else .notANumber
  else if exponent = 0 then .finite negative fraction (1 - bias) false
  else .finite negative (Nat.pow 2 format.fractionBits + fraction) (exponent - bias)
    (fraction = 0 ∧ 1 < exponent)

/-! ## The shortest decimal -/

/-- The number `digits · 10 ^ exponent`. -/
structure Decimal where
  digits : Nat
  exponent : Int
  deriving DecidableEq, Repr

/-- A rational `numerator / denominator` in units of `10 ^ k`. -/
def inUnits (numerator denominator : Nat) (k : Int) : Nat × Nat :=
  if 0 ≤ k then (numerator, denominator * Nat.pow 10 k.toNat)
  else (numerator * Nat.pow 10 (-k).toNat, denominator)

/-- The greatest power of ten that is at most a positive rational, among those that a binary
format of 64 bits can reach. -/
def magnitude (numerator denominator : Nat) : Int :=
  (((List.range 720).map fun (i : Nat) => (350 : Int) - i).find? fun k =>
    let (n, d) := inUnits numerator denominator k
    d ≤ n).getD 0

/-- The decimal with `count` digits that is next to a number and rounds to it, if there is one.
The number and the ends of its interval are given in quarters of `denominator`. -/
def withDigits? (value low high denominator : Nat) (closed : Bool) (top : Int) (count : Nat) :
    Option Decimal :=
  let k := top + 1 - count
  let (v, unit) := inUnits value denominator k
  let (l, _) := inUnits low denominator k
  let (h, _) := inUnits high denominator k
  let inside (digits : Nat) : Bool :=
    if closed then l ≤ digits * unit ∧ digits * unit ≤ h
    else l < digits * unit ∧ digits * unit < h
  let below := v / unit
  match inside below, inside (below + 1) with
  | true, true => some ⟨if 2 * (v % unit) < unit then below else below + 1, k⟩
  | true, false => some ⟨below, k⟩
  | false, true => some ⟨below + 1, k⟩
  | false, false => none

/-- The shortest decimal that rounds to `significand · 2 ^ exponent`; seventeen digits suffice for
every number of 64 bits. -/
def shortest (significand : Nat) (exponent : Int) (narrowBelow : Bool) : Decimal :=
  let scale := Nat.pow 2 (exponent - 2).toNat
  let denominator := Nat.pow 2 (2 - exponent).toNat
  let value := 4 * significand * scale
  let low := (4 * significand - if narrowBelow then 1 else 2) * scale
  let high := (4 * significand + 2) * scale
  let top := magnitude value denominator
  ((List.range 17).findSome? fun i =>
    withDigits? value low high denominator (significand % 2 = 0) top (i + 1)).getD ⟨0, 0⟩

/-! ## The text -/

/-- The digits of a number without the zeros at its end. -/
def trimZeros (digits : List Char) : List Char :=
  (digits.reverse.dropWhile (· = '0')).reverse

/-- The text of a decimal.  `top` is the power of ten of the first digit. -/
def decimalText (digits : List Char) (top : Int) : String :=
  if top < -4 ∨ 16 ≤ top then
    let fraction := String.ofList digits.tail
    let whole := String.ofList (digits.take 1)
    if fraction.isEmpty then s!"{whole}e{top}" else s!"{whole}.{fraction}e{top}"
  else if top < 0 then
    "0." ++ String.ofList (List.replicate (-top - 1).toNat '0' ++ digits)
  else
    let places := top.toNat + 1
    let whole := digits.take places ++ List.replicate (places - digits.length) '0'
    let fraction := digits.drop places
    String.ofList (whole ++ '.' :: if fraction.isEmpty then ['0'] else fraction)

/-- The text of a binary number. -/
def text : Binary → String
  | .notANumber => "NaN"
  | .infinity negative => if negative then "-inf" else "inf"
  | .finite negative significand exponent narrowBelow =>
    let sign := if negative then "-" else ""
    if significand = 0 then sign ++ "0.0"
    else
      let decimal := shortest significand exponent narrowBelow
      let digits := (toString decimal.digits).toList
      sign ++ decimalText (trimZeros digits) (decimal.exponent + digits.length - 1)

end Binary

end AccessTransformer
