import AccessTransformer.ClassFile.Dissect
import AccessTransformer.Proofs.ClassFile.Reading

/-!
# Dissecting what was written

A dissecting reader reads a value from bytes if it takes just these bytes, wherever in the file they
stand and whatever follows.  It refuses bytes if, again wherever they stand, they make it meet an
attribute of unknown form.  Whoever reads a row of things reads it if it reads all of them, and
refuses it if it reads those up to one that it refuses.

* `Dissect.Reads`, `Dissect.Refuses`: what a reader does with bytes.
* `Reads.bind`, `Refuses.bind`, `Reads.bind_refuses`: readers in a row.
* `Reads.counted16`, `Refuses.counted16`: readers as often as a count says.
-/

namespace AccessTransformer.ClassFile.Dissect

variable {α β γ : Type} {reader : Dissect α} {bytes more : Bytes} {a : α} {b : β}

/-- Whether a reader takes just the given bytes, and gives the value. -/
def Reads (reader : Dissect α) (bytes : Bytes) (a : α) : Prop :=
  ∀ position rest,
    reader ⟨position, bytes ++ rest⟩ = .ok (a, ⟨position + bytes.length, rest⟩)

/-- Whether a reader fails in the given bytes, at an attribute of unknown form. -/
def Refuses (reader : Dissect α) (bytes : Bytes) : Prop :=
  ∀ position rest, ∃ name,
    reader ⟨position, bytes ++ rest⟩ = .error (.unmatchedAttribute name)

/-! ## Single values -/

theorem reads_u8 (byte : UInt8) : Reads u8 [byte] byte := fun _ _ => rfl

theorem reads_u16 (value : UInt16) : Reads u16 (Bytes.ofWord value) value := by
  intro position rest
  show Except.ok (Bytes.word _ _, _) = _
  rw [Bytes.word_bigEndian]
  rfl

/-- A number that fits into a word is read as such. -/
theorem reads_u16_ofNat {count : Nat} (h : count < 0x10000) :
    Reads u16 (Bytes.bigEndian 2 count) (UInt16.ofNat count) := by
  have hread := reads_u16 (UInt16.ofNat count)
  rwa [Bytes.ofWord, UInt16.toNat_ofNat_of_lt' h] at hread

theorem reads_u32 {value : Nat} (h : value < 0x100000000) :
    Reads u32 (Bytes.bigEndian 4 value) value := by
  intro position rest
  show Except.ok (Bytes.doubleWord _ _ _ _, _) = _
  rw [Bytes.doubleWord_bigEndian h]
  rfl

/-- Eight bytes are some number. -/
theorem exists_reads_u64 (value : Nat) : ∃ read, Reads u64 (Bytes.bigEndian 8 value) read :=
  ⟨_, fun _ _ => rfl⟩

theorem reads_block (bytes : Bytes) : Reads (block bytes.length) bytes bytes := by
  intro position rest
  rw [block, Bytes.splitAt?_append]

/-! ## Readers in a row -/

namespace Reads

theorem pure (a : α) : Reads (Pure.pure a) [] a := fun _ _ => rfl

/-- A reader and then another one. -/
theorem bind {next : α → Dissect β} (h : Reads reader bytes a) (h' : Reads (next a) more b) :
    Reads (reader >>= next) (bytes ++ more) b := by
  intro position rest
  rw [List.append_assoc, List.length_append, ← Nat.add_assoc]
  show (reader ⟨position, bytes ++ (more ++ rest)⟩ >>= fun parts => next parts.1 parts.2) = _
  rw [h]
  exact h' _ rest

/-- A reader and then one that takes no bytes. -/
theorem bind_nil {next : α → Dissect β} (h : Reads reader bytes a) (h' : Reads (next a) [] b) :
    Reads (reader >>= next) bytes b := by
  have hboth := h.bind h'
  rwa [List.append_nil] at hboth

/-- A value made of the one that is read. -/
theorem bind_pure (h : Reads reader bytes a) (f : α → β) :
    Reads (reader >>= fun a => Pure.pure (f a)) bytes (f a) :=
  h.bind_nil (Reads.pure (f a))

/-- A reader behind an outcome that takes no bytes. -/
theorem lift_bind {outcome : Except FormFault α} {next : α → Dissect β} (h : outcome = .ok a)
    (h' : Reads (next a) bytes b) : Reads (liftM outcome >>= next) bytes b := by
  subst h
  exact h'

end Reads

namespace Refuses

/-- What is refused at once is refused in a row. -/
theorem bind (h : Refuses reader bytes) (next : α → Dissect β) (more : Bytes) :
    Refuses (reader >>= next) (bytes ++ more) := by
  intro position rest
  obtain ⟨name, h⟩ := h position (more ++ rest)
  refine ⟨name, ?_⟩
  rw [List.append_assoc]
  show (reader ⟨position, bytes ++ (more ++ rest)⟩ >>= fun parts => next parts.1 parts.2) = _
  rw [h]
  rfl

/-- What is refused at once is refused in front of a reader that would take no bytes. -/
theorem bind_nil (h : Refuses reader bytes) (next : α → Dissect β) :
    Refuses (reader >>= next) bytes := by
  have hboth := h.bind next []
  rwa [List.append_nil] at hboth

/-- A reader behind an outcome that takes no bytes. -/
theorem lift_bind {outcome : Except FormFault α} {next : α → Dissect β} (h : outcome = .ok a)
    (h' : Refuses (next a) bytes) : Refuses (liftM outcome >>= next) bytes := by
  subst h
  exact h'

end Refuses

/-- What is refused behind a reader that goes well is refused in a row. -/
theorem Reads.bind_refuses {next : α → Dissect β} (h : Reads reader bytes a)
    (h' : Refuses (next a) more) : Refuses (reader >>= next) (bytes ++ more) := by
  intro position rest
  obtain ⟨name, h'⟩ := h' (position + bytes.length) rest
  refine ⟨name, ?_⟩
  rw [List.append_assoc]
  show (reader ⟨position, bytes ++ (more ++ rest)⟩ >>= fun parts => next parts.1 parts.2) = _
  rw [h]
  exact h'

/-! ## Lists -/

variable {write : γ → Bytes} {written : List γ} {as : List α}

/-- Values are read one after the other. -/
theorem Reads.times (h : List.Forall₂ (fun c a => Reads reader (write c) a) written as) :
    Reads (ClassFile.times reader written.length) (written.flatMap write) as := by
  induction h with
  | nil => exact Reads.pure []
  | cons hfirst _ ih =>
    rw [List.flatMap_cons]
    exact hfirst.bind (ih.bind_pure _)

/-- **Values are read as often as a count in front of them says.** -/
theorem Reads.counted16 (h : List.Forall₂ (fun c a => Reads reader (write c) a) written as)
    (hlength : written.length < 0x10000) :
    Reads (Dissect.counted16 reader) (Bytes.ofList write written) as := by
  refine (reads_u16_ofNat hlength).bind ?_
  rw [UInt16.toNat_ofNat_of_lt' hlength]
  exact Reads.times h

/-- Values are read up to the first one that is refused. -/
theorem Refuses.times {V : γ → Prop} (hreads : ∀ c ∈ written, ¬V c → ∃ a, Reads reader (write c) a)
    (hrefuses : ∀ c ∈ written, V c → Refuses reader (write c)) (h : ∃ c ∈ written, V c) :
    Refuses (ClassFile.times reader written.length) (written.flatMap write) := by
  induction written with
  | nil =>
    obtain ⟨c, hmem, -⟩ := h
    cases hmem
  | cons first written ih =>
    obtain ⟨hfirst, hreads⟩ := List.forall_mem_cons.mp hreads
    obtain ⟨hrefused, hrefuses⟩ := List.forall_mem_cons.mp hrefuses
    rw [List.flatMap_cons]
    by_cases hV : V first
    · exact (hrefused hV).bind _ _
    · obtain ⟨a, ha⟩ := hfirst hV
      obtain ⟨c, hmem, hc⟩ := h
      have hrest : ∃ c ∈ written, V c := by
        rcases List.mem_cons.mp hmem with rfl | hmem
        · exact absurd hc hV
        · exact ⟨c, hmem, hc⟩
      exact ha.bind_refuses ((ih hreads hrefuses hrest).bind_nil _)

/-- **A counted list with a value that is refused is refused**, if all others can be read. -/
theorem Refuses.counted16 {V : γ → Prop}
    (hreads : ∀ c ∈ written, ¬V c → ∃ a, Reads reader (write c) a)
    (hrefuses : ∀ c ∈ written, V c → Refuses reader (write c)) (h : ∃ c ∈ written, V c)
    (hlength : written.length < 0x10000) :
    Refuses (Dissect.counted16 reader) (Bytes.ofList write written) := by
  refine (reads_u16_ofNat hlength).bind_refuses ?_
  rw [UInt16.toNat_ofNat_of_lt' hlength]
  exact Refuses.times hreads hrefuses h

/-- Words are passed over. -/
theorem reads_words (passed : List UInt16) :
    Reads (words passed.length) (passed.flatMap Bytes.ofWord) () := by
  have hwords : List.Forall₂ (fun word value => Reads u16 (Bytes.ofWord word) value) passed passed :=
    List.forall₂_same.mpr fun word _ => reads_u16 word
  exact (Reads.times hwords).bind_pure fun _ => ()

end AccessTransformer.ClassFile.Dissect
