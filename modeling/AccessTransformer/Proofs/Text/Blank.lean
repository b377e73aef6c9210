import AccessTransformer.Text.Blank

/-!
# White space, one character after the other

Unicode has twenty-five characters with the property White_Space.  Most of them stand next to
others, and are looked up in ranges; here they are given one by one.

* `isBlank_eq_true_iff`: which texts are blank.
-/

namespace AccessTransformer.Text

/-- The numbers of all characters that are white space. -/
def whiteCodes : List Nat :=
  [0x09, 0x0A, 0x0B, 0x0C, 0x0D, 0x20, 0x85, 0xA0, 0x1680, 0x2000, 0x2001, 0x2002, 0x2003, 0x2004,
    0x2005, 0x2006, 0x2007, 0x2008, 0x2009, 0x200A, 0x2028, 0x2029, 0x202F, 0x205F, 0x3000]

/-- Whether a text has no character that is not white space. -/
def Blank (text : String) : Prop := ∀ c ∈ text.toList, c.toNat ∈ whiteCodes

theorem isWhite_eq_true_iff {c : Char} : isWhite c = true ↔ c.toNat ∈ whiteCodes := by
  simp only [isWhite, whiteSpace, whiteCodes, List.any_cons, List.any_nil, Bool.or_eq_true,
    Bool.and_eq_true, Nat.ble_eq, Bool.false_eq_true, List.mem_cons, List.not_mem_nil, or_false]
  omega

theorem isBlank_eq_true_iff {text : String} : isBlank text = true ↔ Blank text := by
  simp only [isBlank, Blank, List.all_eq_true, isWhite_eq_true_iff]

end AccessTransformer.Text
