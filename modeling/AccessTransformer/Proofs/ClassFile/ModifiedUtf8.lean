import AccessTransformer.ClassFile.ModifiedUtf8
import AccessTransformer.Proofs.Outcomes

/-!
# Writing modified UTF-8

A text is written character by character, as one or two code units each, and every code unit in the
one spelling that it has.  What is written so is read back, and nothing else is read.

Both steps of reading go backwards in the same way.  The bits that a sequence of bytes carries
determine its bytes once it is known how long it is, and a sequence that is longer than its unit
needs is refused; just so a pair of halves is that of the character which it stands for.

* `Utf16.chars?_ofChars`, `Utf16.eq_ofChars_of_chars?_eq_some`: characters and their code units.
* `ModifiedUtf8.units_flatMap_spell`, `ModifiedUtf8.isSpelling_of_units_eq_ok`: code units and their
  spellings.
* `ModifiedUtf8.decode_encode`: texts are read back.
* `ModifiedUtf8.decode_eq_ok_iff_eq_encode`: only the bytes that write a text are read as that text.
* `ModifiedUtf8.eq_of_decode?_encode`: strict UTF-8 makes no other text of them.
-/

namespace AccessTransformer

/-! ## Code units -/

namespace Utf16

/-- The code units of a character. -/
def ofChar (c : Char) : List Nat :=
  if c.toNat < 0x10000 then [c.toNat]
  else [0xD800 + (c.toNat - 0x10000) / 0x400, 0xDC00 + (c.toNat - 0x10000) % 0x400]

/-- The code units of a text. -/
def ofChars (text : List Char) : List Nat := text.flatMap ofChar

/-- A unit that is no half of a pair is a character. -/
theorem chars?_cons {unit : Nat} (hhigh : ¬IsHigh unit) (hlow : ¬IsLow unit) (units : List Nat) :
    chars? (unit :: units) = (chars? units).map (Char.ofNat unit :: ·) := by
  cases units with
  | nil =>
    have hhalf : ¬(IsHigh unit ∨ IsLow unit) := not_or.mpr ⟨hhigh, hlow⟩
    simp only [chars?, if_neg hhalf, Option.map_some]
  | cons next units => rw [chars?, if_neg hhigh, if_neg hlow]

/-- Two halves of a pair are a character. -/
theorem chars?_cons_cons {high low : Nat} (hhigh : IsHigh high) (hlow : IsLow low)
    (units : List Nat) :
    chars? (high :: low :: units) = (chars? units).map (pair high low :: ·) := by
  rw [chars?, if_pos hhigh, if_pos hlow]

/-- A character is no half of a pair. -/
theorem not_isHigh_toNat (c : Char) : ¬IsHigh c.toNat ∧ ¬IsLow c.toNat := by
  have hvalid : c.toNat < 0xD800 ∨ 0xDFFF < c.toNat ∧ c.toNat < 0x110000 := c.valid
  unfold IsHigh IsLow
  omega

/-- The code units of a character in front of others. -/
theorem chars?_ofChar_append (c : Char) (units : List Nat) :
    chars? (ofChar c ++ units) = (chars? units).map (c :: ·) := by
  unfold ofChar
  by_cases hbasic : c.toNat < 0x10000
  · rw [if_pos hbasic, List.singleton_append]
    obtain ⟨hhigh, hlow⟩ := not_isHigh_toNat c
    rw [chars?_cons hhigh hlow, Char.ofNat_toNat]
  · rw [if_neg hbasic, List.cons_append, List.singleton_append]
    have hvalid : c.toNat < 0xD800 ∨ 0xDFFF < c.toNat ∧ c.toNat < 0x110000 := c.valid
    have hhigh : IsHigh (0xD800 + (c.toNat - 0x10000) / 0x400) := by
      unfold IsHigh
      omega
    have hlow : IsLow (0xDC00 + (c.toNat - 0x10000) % 0x400) := by
      unfold IsLow
      omega
    have hpair : pair (0xD800 + (c.toNat - 0x10000) / 0x400)
        (0xDC00 + (c.toNat - 0x10000) % 0x400) = c := by
      have hcode : 0x10000 + (0xD800 + (c.toNat - 0x10000) / 0x400 - 0xD800) * 0x400
          + (0xDC00 + (c.toNat - 0x10000) % 0x400 - 0xDC00) = c.toNat := by
        omega
      rw [pair, hcode, Char.ofNat_toNat]
    rw [chars?_cons_cons hhigh hlow, hpair]

/-- **Characters are read back from their code units.** -/
theorem chars?_ofChars (text : List Char) : chars? (ofChars text) = some text := by
  induction text with
  | nil => rfl
  | cons c text ih =>
    show chars? (ofChar c ++ ofChars text) = _
    rw [chars?_ofChar_append, ih]
    rfl

/-- Code units have sixteen bits. -/
theorem lt_of_mem_ofChars {unit : Nat} {text : List Char} (h : unit ∈ ofChars text) :
    unit < 0x10000 := by
  obtain ⟨c, -, hunit⟩ := List.mem_flatMap.mp h
  have hvalid : c.toNat < 0xD800 ∨ 0xDFFF < c.toNat ∧ c.toNat < 0x110000 := c.valid
  unfold ofChar at hunit
  split at hunit
  · rename_i hbasic
    rwa [List.mem_singleton.mp hunit]
  · rcases List.mem_cons.mp hunit with rfl | hlow
    · omega
    · rw [List.mem_singleton.mp hlow]
      omega

theorem toNat_ofNat_of_not_half {code : Nat} (hcode : code < 0x110000) (hhigh : ¬IsHigh code)
    (hlow : ¬IsLow code) : (Char.ofNat code).toNat = code := by
  have hvalid : code.isValidChar := by
    unfold IsHigh at hhigh
    unfold IsLow at hlow
    unfold Nat.isValidChar
    omega
  rw [Char.ofNat, dif_pos hvalid]
  rfl

/-- A unit that is no half of a pair is that of its character. -/
theorem ofChar_ofNat {unit : Nat} (hunit : unit < 0x10000) (hhigh : ¬IsHigh unit)
    (hlow : ¬IsLow unit) : ofChar (Char.ofNat unit) = [unit] := by
  rw [ofChar, toNat_ofNat_of_not_half (by omega) hhigh hlow, if_pos hunit]

/-- Two halves of a pair are those of their character. -/
theorem ofChar_pair {high low : Nat} (hhigh : IsHigh high) (hlow : IsLow low) :
    ofChar (pair high low) = [high, low] := by
  unfold IsHigh at hhigh
  unfold IsLow at hlow
  have hcode : (pair high low).toNat = 0x10000 + (high - 0xD800) * 0x400 + (low - 0xDC00) := by
    refine toNat_ofNat_of_not_half (by omega) ?_ ?_
    · unfold IsHigh
      omega
    · unfold IsLow
      omega
  have hhighHalf : 0xD800 + (0x10000 + (high - 0xD800) * 0x400 + (low - 0xDC00) - 0x10000) / 0x400
      = high := by omega
  have hlowHalf : 0xDC00 + (0x10000 + (high - 0xD800) * 0x400 + (low - 0xDC00) - 0x10000) % 0x400
      = low := by omega
  rw [ofChar, hcode, if_neg (by omega), hhighHalf, hlowHalf]

/-- **Code units that are read as characters are those of these characters.** -/
theorem eq_ofChars_of_chars?_eq_some {units : List Nat} {chars : List Char}
    (hunits : ∀ unit ∈ units, unit < 0x10000) (h : chars? units = some chars) :
    units = ofChars chars := by
  induction units using chars?.induct generalizing chars with
  | case1 =>
    obtain rfl : [] = chars := Option.some.inj h
    rfl
  | case2 unit hhalf =>
    rw [chars?, if_pos hhalf] at h
    cases h
  | case3 unit hhalf =>
    rw [chars?, if_neg hhalf] at h
    obtain rfl := Option.some.inj h
    obtain ⟨hhigh, hlow⟩ := not_or.mp hhalf
    rw [ofChars, List.flatMap_singleton, ofChar_ofNat (hunits unit List.mem_cons_self) hhigh hlow]
  | case4 high low units hhigh hlow ih =>
    rw [chars?_cons_cons hhigh hlow] at h
    obtain ⟨rest, hrest, rfl⟩ := Option.map_eq_some_iff.mp h
    have hunits' : ∀ unit ∈ units, unit < 0x10000 := fun unit hmem =>
      hunits unit (List.mem_cons_of_mem _ (List.mem_cons_of_mem _ hmem))
    rw [ofChars, List.flatMap_cons, ofChar_pair hhigh hlow, ← ofChars, ← ih hunits' hrest]
    rfl
  | case5 unit next units hhigh hlow =>
    rw [chars?, if_pos hhigh, if_neg hlow] at h
    cases h
  | case6 unit next units hhigh hlow =>
    rw [chars?, if_neg hhigh, if_pos hlow] at h
    cases h
  | case7 unit next units hhigh hlow ih =>
    rw [chars?_cons hhigh hlow] at h
    obtain ⟨rest, hrest, rfl⟩ := Option.map_eq_some_iff.mp h
    obtain ⟨hunit, hunits'⟩ := List.forall_mem_cons.mp hunits
    rw [ofChars, List.flatMap_cons, ofChar_ofNat hunit hhigh hlow, ← ofChars, ← ih hunits' hrest]
    rfl

end Utf16

/-! ## Spellings -/

/-- A continuation byte carries the six bits that were put into it. -/
theorem Utf8.continuation?_ofNat {bits : Nat} (h : bits < 64) :
    continuation? (UInt8.ofNat (0x80 + bits)) = some bits := by
  have hbyte : (UInt8.ofNat (0x80 + bits)).toNat = 0x80 + bits :=
    UInt8.toNat_ofNat_of_lt' (by show _ < 256; omega)
  rw [continuation?, hbyte, if_pos (by omega)]
  congr 1
  omega

/-- A continuation byte is the one with the bits that it carries. -/
theorem Utf8.eq_ofNat_of_continuation?_eq_some {byte : UInt8} {bits : Nat}
    (h : continuation? byte = some bits) : bits < 64 ∧ byte = UInt8.ofNat (0x80 + bits) := by
  unfold continuation? at h
  split at h
  · rename_i hbyte
    obtain rfl := Option.some.inj h
    have hcode : 0x80 + byte.toNat % 64 = byte.toNat := by omega
    exact ⟨Nat.mod_lt _ (by omega), by rw [hcode, UInt8.ofNat_toNat]⟩
  · cases h

namespace ModifiedUtf8

/-- The bytes that spell a code unit. -/
def spell (unit : Nat) : Bytes :=
  if 1 ≤ unit ∧ unit < 0x80 then [UInt8.ofNat unit]
  else if unit < 0x800 then [UInt8.ofNat (0xC0 + unit / 64), UInt8.ofNat (0x80 + unit % 64)]
  else [UInt8.ofNat (0xE0 + unit / 4096), UInt8.ofNat (0x80 + unit / 64 % 64),
    UInt8.ofNat (0x80 + unit % 64)]

/-- The bytes that write a text. -/
def encode (text : String) : Bytes := (Utf16.ofChars text.toList).flatMap spell

/-- A byte that is a unit by itself, whatever follows. -/
theorem units_cons {first : UInt8} (h : 1 ≤ first.toNat ∧ first.toNat < 0x80) (offset : Nat)
    (bytes : Bytes) :
    units offset (first :: bytes) = (units (offset + 1) bytes).map (first.toNat :: ·) := by
  cases bytes with
  | nil =>
    simp only [units, if_pos h]
    rfl
  | cons second bytes =>
    rw [units, if_pos h]
    cases units (offset + 1) (second :: bytes) <;> rfl

/-- A unit is read back from its spelling, whatever follows. -/
theorem units_spell_append {unit : Nat} (h : unit < 0x10000) (offset : Nat) (bytes : Bytes) :
    units offset (spell unit ++ bytes)
      = (units (offset + (spell unit).length) bytes).map (unit :: ·) := by
  have hbyte : ∀ n, n < 256 → (UInt8.ofNat n).toNat = n := fun n hn => UInt8.toNat_ofNat_of_lt' hn
  unfold spell
  by_cases hone : 1 ≤ unit ∧ unit < 0x80
  · have hfirst := hbyte unit (by omega)
    rw [if_pos hone, List.singleton_append, units_cons (by rwa [hfirst]), hfirst]
    rfl
  · rw [if_neg hone]
    by_cases htwo : unit < 0x800
    · have hfirst := hbyte (0xC0 + unit / 64) (by omega)
      have hunit : (0xC0 + unit / 64) % 32 * 64 + unit % 64 = unit := by omega
      rw [if_pos htwo, List.cons_append, List.singleton_append, units, hfirst,
        if_neg (by omega), if_pos (by omega)]
      simp only [Utf8.continuation?_ofNat (Nat.mod_lt unit (by omega : 0 < 64)), hunit]
      rw [if_neg (by omega)]
      cases units (offset + 2) bytes <;> rfl
    · have hfirst := hbyte (0xE0 + unit / 4096) (by omega)
      have hunit : (0xE0 + unit / 4096) % 16 * 4096 + unit / 64 % 64 * 64 + unit % 64 = unit := by
        omega
      rw [if_neg htwo, List.cons_append, List.cons_append, List.singleton_append, units, hfirst,
        if_neg (by omega), if_neg (by omega), if_pos (by omega)]
      simp only [Utf8.continuation?_ofNat (Nat.mod_lt _ (by omega : 0 < 64)), hunit]
      rw [if_neg htwo]
      cases units (offset + 3) bytes <;> rfl

/-- **Code units are read back from their spellings.** -/
theorem units_flatMap_spell (codes : List Nat) (h : ∀ unit ∈ codes, unit < 0x10000)
    (offset : Nat) : units offset (codes.flatMap spell) = .ok codes := by
  induction codes generalizing offset with
  | nil => rfl
  | cons unit codes ih =>
    obtain ⟨hunit, hcodes⟩ := List.forall_mem_cons.mp h
    rw [List.flatMap_cons, units_spell_append hunit, ih hcodes]
    rfl

/-- **Texts are read back.** -/
theorem decode_encode (text : String) : decode (encode text) = .ok text := by
  have hunits : units 0 (encode text) = .ok (Utf16.ofChars text.toList) :=
    units_flatMap_spell _ (fun _ => Utf16.lt_of_mem_ofChars) 0
  rw [decode, hunits]
  simp only [bind, Except.bind, Utf16.chars?_ofChars, String.ofList_toList]

/-! ## What is read -/

theorem spell_of_byte {first : UInt8} (h : 1 ≤ first.toNat ∧ first.toNat < 0x80) :
    spell first.toNat = [first] := by
  rw [spell, if_pos h, UInt8.ofNat_toNat]

/-- Two bytes that carry a unit are its spelling, unless it has a shorter one. -/
theorem spell_of_two {first second : UInt8} {low : Nat} (hfirst : first.toNat / 32 = 6)
    (hsecond : Utf8.continuation? second = some low)
    (hunit : ¬(first.toNat % 32 * 64 + low ≠ 0 ∧ first.toNat % 32 * 64 + low < 0x80)) :
    spell (first.toNat % 32 * 64 + low) = [first, second] := by
  obtain ⟨hlow, rfl⟩ := Utf8.eq_ofNat_of_continuation?_eq_some hsecond
  have hlead : 0xC0 + (first.toNat % 32 * 64 + low) / 64 = first.toNat := by omega
  have hbits : (first.toNat % 32 * 64 + low) % 64 = low := by omega
  rw [spell, if_neg (by omega), if_pos (by omega), hlead, hbits, UInt8.ofNat_toNat]

/-- Three bytes that carry a unit are its spelling, unless it has a shorter one. -/
theorem spell_of_three {first second third : UInt8} {middle low : Nat}
    (hfirst : first.toNat / 16 = 14) (hsecond : Utf8.continuation? second = some middle)
    (hthird : Utf8.continuation? third = some low)
    (hunit : ¬first.toNat % 16 * 4096 + middle * 64 + low < 0x800) :
    spell (first.toNat % 16 * 4096 + middle * 64 + low) = [first, second, third] := by
  obtain ⟨hmiddle, rfl⟩ := Utf8.eq_ofNat_of_continuation?_eq_some hsecond
  obtain ⟨hlow, rfl⟩ := Utf8.eq_ofNat_of_continuation?_eq_some hthird
  have hlead : 0xE0 + (first.toNat % 16 * 4096 + middle * 64 + low) / 4096 = first.toNat := by
    omega
  have hmiddleBits : (first.toNat % 16 * 4096 + middle * 64 + low) / 64 % 64 = middle := by omega
  have hlowBits : (first.toNat % 16 * 4096 + middle * 64 + low) % 64 = low := by omega
  rw [spell, if_neg (by omega), if_neg hunit, hlead, hmiddleBits, hlowBits, UInt8.ofNat_toNat]

/-- Whether bytes are the spellings of code units, one behind the other. -/
def IsSpelling (bytes : Bytes) (codes : List Nat) : Prop :=
  bytes = codes.flatMap spell ∧ ∀ unit ∈ codes, unit < 0x10000

/-- The spelling of one more unit. -/
theorem IsSpelling.cons {bytes front : Bytes} {codes : List Nat} {unit : Nat}
    (h : IsSpelling bytes codes) (hspell : spell unit = front) (hunit : unit < 0x10000) :
    IsSpelling (front ++ bytes) (unit :: codes) := by
  obtain ⟨rfl, hcodes⟩ := h
  refine ⟨?_, List.forall_mem_cons.mpr ⟨hunit, hcodes⟩⟩
  rw [List.flatMap_cons, hspell]

/-- **Bytes that are read as code units are the spellings of these units.** -/
theorem isSpelling_of_units_eq_ok {offset : Nat} {bytes : Bytes} {codes : List Nat}
    (h : units offset bytes = .ok codes) : IsSpelling bytes codes := by
  fun_induction units offset bytes generalizing codes with
  | case1 offset =>
    obtain rfl := Except.ok.inj h
    exact ⟨rfl, nofun⟩
  | case2 offset first bytes hfirst ih =>
    obtain ⟨rest, hrest, h⟩ := bind_eq_ok_iff.mp h
    obtain rfl := Except.ok.inj h
    exact (ih hrest).cons (spell_of_byte hfirst) (by omega)
  | case4 offset first _ hfirst second bytes low hsecond unit hunit =>
    rename_i ih
    obtain ⟨rest, hrest, h⟩ := bind_eq_ok_iff.mp h
    obtain rfl := Except.ok.inj h
    have hlow := (Utf8.eq_ofNat_of_continuation?_eq_some hsecond).1
    exact (ih hrest).cons (spell_of_two hfirst hsecond hunit) (by omega)
  | case8 offset first _ _ hfirst second third bytes middle low hthird hsecond unit hunit =>
    rename_i ih
    obtain ⟨rest, hrest, h⟩ := bind_eq_ok_iff.mp h
    obtain rfl := Except.ok.inj h
    have hmiddle := (Utf8.eq_ofNat_of_continuation?_eq_some hsecond).1
    have hlow := (Utf8.eq_ofNat_of_continuation?_eq_some hthird).1
    exact (ih hrest).cons (spell_of_three hfirst hsecond hthird hunit) (by omega)
  | _ => cases h

/-- Bytes that are read as a text write that text. -/
theorem eq_encode_of_decode_eq_ok {bytes : Bytes} {text : String} (h : decode bytes = .ok text) :
    bytes = encode text := by
  obtain ⟨codes, hcodes, hchars⟩ := bind_eq_ok_iff.mp h
  obtain ⟨rfl, hlt⟩ := isSpelling_of_units_eq_ok hcodes
  split at hchars
  · rename_i chars hsome
    rw [encode, ← Except.ok.inj hchars, String.toList_ofList,
      ← Utf16.eq_ofChars_of_chars?_eq_some hlt hsome]
  · cases hchars

/-- **Bytes are read as a text exactly if they are what writes it**, and refused exactly if they
write no text.  So every text is accepted in one spelling, and in no other one. -/
theorem decode_eq_ok_iff_eq_encode (bytes : Bytes) :
    (∀ text, decode bytes = .ok text ↔ bytes = encode text) ∧
      ((∃ fault, decode bytes = .error fault) ↔ ∀ text, bytes ≠ encode text) := by
  have hiff : ∀ text, decode bytes = .ok text ↔ bytes = encode text := fun text =>
    ⟨eq_encode_of_decode_eq_ok, fun h => h ▸ decode_encode text⟩
  refine ⟨hiff, ?_⟩
  simp only [ne_eq, ← hiff]
  cases decode bytes with
  | ok text => simp
  | error fault => simp

/-- A zero byte writes nothing, since NUL has two bytes. -/
example : encode "\x00" = [0xC0, 0x80] ∧ decode [0x00] = .error (.invalidByte 0x00 0) := by decide

/-! ## Modified UTF-8 as UTF-8 -/

/-- Strict UTF-8 takes the spelling of a code unit for a character, unless it is NUL or half of a
pair. -/
theorem decode?_spell_append {unit : Nat} (h : unit < 0x10000) (bytes : Bytes) :
    Utf8.decode? (spell unit ++ bytes)
      = if 1 ≤ unit ∧ ¬Utf16.IsHigh unit ∧ ¬Utf16.IsLow unit
        then (Utf8.decode? bytes).map (Char.ofNat unit :: ·) else none := by
  have hbyte : ∀ n, n < 256 → (UInt8.ofNat n).toNat = n := fun n hn => UInt8.toNat_ofNat_of_lt' hn
  have hlow := Utf8.continuation?_ofNat (Nat.mod_lt unit (by omega : 0 < 64))
  unfold spell
  by_cases hone : 1 ≤ unit ∧ unit < 0x80
  · have hfirst := hbyte unit (by omega)
    have hcharacter : 1 ≤ unit ∧ ¬Utf16.IsHigh unit ∧ ¬Utf16.IsLow unit := by
      unfold Utf16.IsHigh Utf16.IsLow
      omega
    rw [if_pos hone, List.singleton_append, if_pos hcharacter, Utf8.decode?.eq_def]
    simp only [hfirst, if_pos hone.2]
  · rw [if_neg hone]
    by_cases htwo : unit < 0x800
    · have hfirst := hbyte (0xC0 + unit / 64) (by omega)
      have hunit : (0xC0 + unit / 64) % 32 * 64 + unit % 64 = unit := by omega
      have hscalar : Utf8.IsScalar 0x80 unit ↔
          1 ≤ unit ∧ ¬Utf16.IsHigh unit ∧ ¬Utf16.IsLow unit := by
        unfold Utf8.IsScalar Utf16.IsHigh Utf16.IsLow
        omega
      rw [if_pos htwo, List.cons_append, List.singleton_append, Utf8.decode?, hfirst,
        if_neg (by omega), if_pos (by omega)]
      simp only [hlow, Option.bind_eq_bind, Option.bind_some, hunit, hscalar]
    · have hfirst := hbyte (0xE0 + unit / 4096) (by omega)
      have hmiddle := Utf8.continuation?_ofNat (Nat.mod_lt (unit / 64) (by omega : 0 < 64))
      have hunit : (0xE0 + unit / 4096) % 16 * 4096 + unit / 64 % 64 * 64 + unit % 64 = unit := by
        omega
      have hscalar : Utf8.IsScalar 0x800 unit ↔
          1 ≤ unit ∧ ¬Utf16.IsHigh unit ∧ ¬Utf16.IsLow unit := by
        unfold Utf8.IsScalar Utf16.IsHigh Utf16.IsLow
        omega
      rw [if_neg htwo, List.cons_append, List.cons_append, List.singleton_append, Utf8.decode?,
        hfirst, if_neg (by omega), if_neg (by omega), if_pos (by omega)]
      simp only [hlow, hmiddle, Option.bind_eq_bind, Option.bind_some, hunit, hscalar]

/-- Strict UTF-8 agrees on a character other than NUL in the basic plane, and accepts no other one
in the spelling that it has here. -/
theorem decode?_flatMap_spell_append (c : Char) (bytes : Bytes) :
    Utf8.decode? ((Utf16.ofChar c).flatMap spell ++ bytes)
      = if 1 ≤ c.toNat ∧ c.toNat < 0x10000 then (Utf8.decode? bytes).map (c :: ·) else none := by
  obtain ⟨hhigh, hlow⟩ := Utf16.not_isHigh_toNat c
  have hvalid : c.toNat < 0xD800 ∨ 0xDFFF < c.toNat ∧ c.toNat < 0x110000 := c.valid
  unfold Utf16.ofChar
  by_cases hbasic : c.toNat < 0x10000
  · rw [if_pos hbasic, List.flatMap_singleton, decode?_spell_append hbasic, Char.ofNat_toNat]
    simp only [hhigh, hlow, hbasic, not_false_eq_true, and_true]
  · have hpair : Utf16.IsHigh (0xD800 + (c.toNat - 0x10000) / 0x400) := by
      unfold Utf16.IsHigh
      omega
    rw [if_neg hbasic, List.flatMap_cons, List.append_assoc, decode?_spell_append (by omega),
      if_neg (by simp [hpair]), if_neg (by omega)]

/-- **What strict UTF-8 makes of a text in modified UTF-8 is that text, or nothing.** -/
theorem eq_of_decode?_encode {text : String} {chars : List Char}
    (h : Utf8.decode? (encode text) = some chars) : chars = text.toList := by
  unfold encode Utf16.ofChars at h
  generalize text.toList = written at h
  induction written generalizing chars with
  | nil => exact (Option.some.inj h).symm
  | cons c written ih =>
    rw [List.flatMap_cons, List.flatMap_append, decode?_flatMap_spell_append] at h
    split at h
    · obtain ⟨others, hothers, rfl⟩ := Option.map_eq_some_iff.mp h
      rw [ih hothers]
    · cases h

end ModifiedUtf8

end AccessTransformer
