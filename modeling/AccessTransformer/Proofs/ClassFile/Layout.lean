import AccessTransformer.Proofs.ClassFile.Truncation
import AccessTransformer.Proofs.ClassFile.Declaration

/-!
# The layout of skimmed bytes

Fields, methods and their attributes tell where they end by counts and lengths alone.  So bytes that
are skimmed with success are laid out as a header, fields, methods and a rest, whatever the names
and bodies in them are; and what skimming makes of such a layout is an equation, for files in which
it fails no less than for others.

* `Skim.Yields`: the outcome of a reader in front of any rest.
* `Skim.Covers`: a reader takes nothing but what was written.
* `Layout`: a header, fields and methods in bytes.
* `Layout.exists_of_read`, `Layout.exists_of_skim`: bytes that are skimmed have a layout.
* `Layout.members_eq_ok`, `Layout.skim_eq`, `Layout.resolveCalls_eq_ok`: what is made of it.
-/

namespace AccessTransformer

/-! ## Numbers -/

namespace Bytes

theorem ofNat_eq_of_toNat (byte : UInt8) {value : Nat} (h : value = byte.toNat) :
    UInt8.ofNat value = byte := by
  rw [h, UInt8.ofNat_toNat]

/-- Two bytes write the word that they are read as. -/
theorem ofWord_word (high low : UInt8) : ofWord (word high low) = [high, low] := by
  have hhigh := high.toNat_lt
  have hlow := low.toNat_lt
  have htoNat : (word high low).toNat = high.toNat * 256 + low.toNat :=
    UInt16.toNat_ofNat_of_lt' (by show _ < 65536; omega)
  rw [ofWord, htoNat]
  simp only [bigEndian, List.nil_append, List.cons_append]
  rw [ofNat_eq_of_toNat high (by omega), ofNat_eq_of_toNat low (by omega)]

/-- Four bytes write the number that they are read as. -/
theorem bigEndian_doubleWord (a b c d : UInt8) :
    bigEndian 4 (doubleWord a b c d) = [a, b, c, d] := by
  have ha := a.toNat_lt
  have hb := b.toNat_lt
  have hc := c.toNat_lt
  have hd := d.toNat_lt
  simp only [bigEndian, doubleWord, List.nil_append, List.cons_append]
  rw [ofNat_eq_of_toNat a (by omega), ofNat_eq_of_toNat b (by omega),
    ofNat_eq_of_toNat c (by omega), ofNat_eq_of_toNat d (by omega)]

theorem doubleWord_lt (a b c d : UInt8) : doubleWord a b c d < 0x100000000 := by
  have ha := a.toNat_lt
  have hb := b.toNat_lt
  have hc := c.toNat_lt
  have hd := d.toNat_lt
  unfold doubleWord
  omega

end Bytes

namespace ClassFile

namespace Skim

variable {α β γ : Type} {reader : Skim α} {bytes more rest : Bytes} {a : α}

/-! ## Outcomes in front of a rest -/

/-- Whether a reader has the given outcome in the given bytes, and leaves what follows them. -/
def Yields (reader : Skim α) (bytes : Bytes) (outcome : Outcome α) : Prop :=
  ∀ rest, reader (bytes ++ rest) = outcome.map (·, rest)

theorem Reads.yields (h : Reads reader bytes a) : Yields reader bytes (Pure.pure a) := h

/-- A reader that goes well, and then another one. -/
theorem Reads.bind_yields {next : α → Skim β} {outcome : Outcome β} (h : Reads reader bytes a)
    (h' : Yields (next a) more outcome) : Yields (reader >>= next) (bytes ++ more) outcome := by
  intro rest
  rw [List.append_assoc]
  show (reader (bytes ++ (more ++ rest)) >>= fun parts => next parts.1 parts.2) = _
  rw [h]
  exact h' rest

/-- A reader that goes well, and then one that takes no bytes. -/
theorem Reads.bind_yields_nil {next : α → Skim β} {outcome : Outcome β} (h : Reads reader bytes a)
    (h' : Yields (next a) [] outcome) : Yields (reader >>= next) bytes outcome := by
  have hboth := h.bind_yields h'
  rwa [List.append_nil] at hboth

namespace Yields

variable {outcome : Outcome α} {next : α → Skim β} {after : α → Outcome β}

/-- Where a reader goes well, so does its outcome. -/
theorem eq_ok_of_append (h : Yields reader bytes outcome) {behind : Bytes}
    (hread : reader (bytes ++ rest) = .ok (a, behind)) : outcome = .ok a ∧ behind = rest := by
  obtain ⟨value, hvalue, hparts⟩ := map_eq_ok_iff.mp ((h rest).symm.trans hread)
  obtain ⟨rfl, rfl⟩ := Prod.mk.inj hparts
  exact ⟨hvalue, rfl⟩

/-- A reader and then another one. -/
theorem bind (h : Yields reader bytes outcome)
    (h' : ∀ a, outcome = .ok a → Yields (next a) more (after a)) :
    Yields (reader >>= next) (bytes ++ more) (outcome >>= after) := by
  intro rest
  rw [List.append_assoc]
  show (reader (bytes ++ (more ++ rest)) >>= fun parts => next parts.1 parts.2) = _
  rw [h]
  cases outcome with
  | error failure => rfl
  | ok a => exact h' a rfl rest

/-- A reader and then one that takes no bytes. -/
theorem bind_nil (h : Yields reader bytes outcome)
    (h' : ∀ a, outcome = .ok a → Yields (next a) [] (after a)) :
    Yields (reader >>= next) bytes (outcome >>= after) := by
  have hboth := h.bind h'
  rwa [List.append_nil] at hboth

theorem lift (outcome : Outcome α) : Yields (liftM outcome : Skim α) [] outcome := by
  intro rest
  cases outcome <;> rfl

/-- A reader behind an outcome that takes no bytes. -/
theorem lift_bind (outcome : Outcome α)
    (h' : ∀ a, outcome = .ok a → Yields (next a) bytes (after a)) :
    Yields (liftM outcome >>= next) bytes (outcome >>= after) :=
  (lift outcome).bind h'

theorem during (h : Yields reader bytes outcome) (step : Step) :
    Yields (Skim.during step reader) bytes (outcome.during step) := by
  intro rest
  rw [Skim.during, h]
  cases outcome <;> rfl

/-- Nothing behind the bytes is looked at. -/
theorem within_append (h : Yields reader bytes outcome) (more : Bytes) :
    reader.within (bytes ++ more) = outcome := by
  rw [within, h]
  cases outcome <;> rfl

variable {write : γ → Bytes} {written : List γ} {each : γ → Outcome α}

/-- Values are read one after the other. -/
theorem times (h : ∀ c ∈ written, Yields reader (write c) (each c)) :
    Yields (ClassFile.times reader written.length) (written.flatMap write)
      (written.mapM each) := by
  induction written with
  | nil => exact (Reads.pure []).yields
  | cons first written ih =>
    obtain ⟨hfirst, hwritten⟩ := List.forall_mem_cons.mp h
    rw [List.flatMap_cons, List.mapM_cons]
    exact hfirst.bind fun a _ => (ih hwritten).bind_nil fun as _ => (Reads.pure (a :: as)).yields

/-- **Values are read as often as a count in front of them says.** -/
theorem counted (h : ∀ c ∈ written, Yields reader (write c) (each c))
    (hlength : written.length < 0x10000) :
    Yields (Skim.counted reader) (Bytes.ofList write written) (written.mapM each) := by
  refine (reads_u16_ofNat hlength).bind_yields ?_
  rw [UInt16.toNat_ofNat_of_lt' hlength]
  exact times h

end Yields

/-! ## Nothing but what was written -/

/-- Whether a reader takes nothing but what some values are written as. -/
def Covers (reader : Skim α) (write : γ → Bytes) (fits : γ → Prop) : Prop :=
  ∀ bytes a rest, reader bytes = .ok (a, rest) → ∃ c, fits c ∧ bytes = write c ++ rest

/-- What a reader of two parts has read, its parts have. -/
theorem exists_of_bind {next : α → Skim β} {b : β} (h : (reader >>= next) bytes = .ok (b, rest)) :
    ∃ a behind, reader bytes = .ok (a, behind) ∧ next a behind = .ok (b, rest) := by
  obtain ⟨⟨a, behind⟩, hfirst, hsecond⟩ := bind_eq_ok_iff.mp h
  exact ⟨a, behind, hfirst, hsecond⟩

/-- An outcome that takes no bytes leaves them all. -/
theorem exists_of_lift_bind {outcome : Outcome α} {next : α → Skim β} {b : β}
    (h : ((liftM outcome : Skim α) >>= next) bytes = .ok (b, rest)) :
    ∃ a, outcome = .ok a ∧ next a bytes = .ok (b, rest) := by
  cases outcome with
  | error failure => cases h
  | ok a => exact ⟨a, rfl, h⟩

theorem eq_append_of_u16 {value : UInt16} (h : u16 bytes = .ok (value, rest)) :
    bytes = Bytes.ofWord value ++ rest := by
  rcases bytes with _ | ⟨high, _ | ⟨low, bytes⟩⟩
  · cases h
  · cases h
  · obtain ⟨rfl, rfl⟩ := Prod.mk.inj (Except.ok.inj h)
    rw [Bytes.ofWord_word]
    rfl

theorem eq_append_of_u32 {value : Nat} (h : u32 bytes = .ok (value, rest)) :
    value < 0x100000000 ∧ bytes = Bytes.bigEndian 4 value ++ rest := by
  rcases bytes with _ | ⟨a, _ | ⟨b, _ | ⟨c, _ | ⟨d, bytes⟩⟩⟩⟩
  · cases h
  · cases h
  · cases h
  · cases h
  · obtain ⟨rfl, rfl⟩ := Prod.mk.inj (Except.ok.inj h)
    rw [Bytes.bigEndian_doubleWord]
    exact ⟨Bytes.doubleWord_lt a b c d, rfl⟩

theorem eq_append_of_take {count : Nat} {front : Bytes}
    (h : take count bytes = .ok (front, rest)) : bytes = front ++ rest ∧ front.length = count := by
  unfold take at h
  split at h
  · rename_i parts hparts
    obtain rfl := Except.ok.inj h
    exact Bytes.splitAt?_eq_some_iff.mp hparts
  · cases h

theorem exists_of_skip {count : Nat} (h : skip count bytes = .ok ((), rest)) :
    ∃ front, bytes = front ++ rest ∧ front.length = count := by
  obtain ⟨front, behind, htake, hrest⟩ := exists_of_bind h
  obtain ⟨-, rfl⟩ := Prod.mk.inj (Except.ok.inj hrest)
  exact ⟨front, eq_append_of_take htake⟩

/-- Two bytes that are passed over are some word. -/
theorem exists_of_skip_two (h : skip 2 bytes = .ok ((), rest)) :
    ∃ word, bytes = Bytes.ofWord word ++ rest := by
  obtain ⟨front, rfl, hlength⟩ := exists_of_skip h
  obtain ⟨high, low, rfl⟩ := List.length_eq_two.mp hlength
  exact ⟨Bytes.word high low, by rw [Bytes.ofWord_word]⟩

namespace Covers

variable {write : γ → Bytes} {fits : γ → Prop}

/-- Values that are read one after the other were written one after the other. -/
theorem times (h : Covers reader write fits) {count : Nat} {as : List α}
    (hread : ClassFile.times reader count bytes = .ok (as, rest)) :
    ∃ written : List γ, (∀ c ∈ written, fits c) ∧ written.length = count ∧
      bytes = written.flatMap write ++ rest := by
  induction count generalizing bytes as with
  | zero =>
    obtain ⟨-, rfl⟩ := Prod.mk.inj (Except.ok.inj hread)
    exact ⟨[], by simp, rfl, rfl⟩
  | succ count ih =>
    obtain ⟨first, behind, hfirst, hread⟩ := exists_of_bind hread
    obtain ⟨others, behind', hothers, hread⟩ := exists_of_bind hread
    obtain ⟨-, rfl⟩ := Prod.mk.inj (Except.ok.inj hread)
    obtain ⟨c, hc, rfl⟩ := h bytes first behind hfirst
    obtain ⟨written, hwritten, rfl, rfl⟩ := ih hothers
    refine ⟨c :: written, List.forall_mem_cons.mpr ⟨hc, hwritten⟩, rfl, ?_⟩
    rw [List.flatMap_cons, List.append_assoc]

/-- **What is read as often as a count says was written behind that count.** -/
theorem counted (h : Covers reader write fits) :
    Covers (Skim.counted reader) (Bytes.ofList write)
      fun written => (∀ c ∈ written, fits c) ∧ written.length < 0x10000 := by
  intro bytes as rest hread
  obtain ⟨count, behind, hcount, hread⟩ := exists_of_bind hread
  obtain ⟨written, hwritten, hlength, rfl⟩ := h.times hread
  have hlt : count.toNat < 0x10000 := count.toNat_lt
  refine ⟨written, ⟨hwritten, hlength ▸ hlt⟩, ?_⟩
  rw [eq_append_of_u16 hcount, Bytes.ofList, hlength, List.append_assoc]
  rfl

end Covers

end Skim

open Skim

/-! ## Attributes and members -/

/-- What an attribute of a method makes known: no calls, if it is not a method body. -/
def WrittenAttribute.look (pool : ConstantPool) (step : Step) (attr : WrittenAttribute) :
    Outcome (Option (List CallSite)) := do
  let name ← (pool.text attr.name).during .attributeName
  callsInAttribute pool step (name, attr.body)

/-- The calls in the last of some attributes that has any. -/
def lastCalls (calls : List CallSite) (found : List (Option (List CallSite))) : List CallSite :=
  found.foldl (fun calls next => next.getD calls) calls

namespace WrittenMember

/-- The field or method that is declared. -/
def resolve (pool : ConstantPool) (member : WrittenMember) : Outcome Member := do
  let name ← (pool.text member.name).during .memberName
  let descriptor ← (pool.text member.descriptor).during .memberDescriptor
  return { access := member.access, name, descriptor }

/-- The method with its calls. -/
def resolveCalls (pool : ConstantPool) (method : WrittenMember) : Outcome MethodCalls := do
  let name ← (pool.text method.name).during .methodName
  let descriptor ← (pool.text method.descriptor).during .methodDescriptor
  let found ← method.attributes.mapM (WrittenAttribute.look pool (.body name descriptor))
  return { name, descriptor, calls := lastCalls [] found }

end WrittenMember

variable {pool : ConstantPool} {attr : WrittenAttribute} {bytes rest : Bytes}

theorem yields_textReference (pool : ConstantPool) (index : UInt16) (step : Step) :
    Yields (textReference pool step) (Bytes.ofWord index) ((pool.text index).during step) :=
  (reads_u16 index).bind_yields_nil (Yields.lift _)

theorem yields_namedBody (pool : ConstantPool) (hfits : attr.Fits) :
    Yields (namedBody pool) attr.written
      ((pool.text attr.name).during .attributeName >>= fun name => pure (name, attr.body)) :=
  (yields_textReference pool attr.name _).bind fun _ _ =>
    ((reads_u32 hfits).bind ((reads_take attr.body).bind_pure _)).yields

/-- What is found in attributes is told by looking at each of them. -/
theorem yields_callsInAttributes {attrs : List WrittenAttribute}
    (hfits : ∀ attr ∈ attrs, attr.Fits) (step : Step) (calls : List CallSite) :
    Yields (callsInAttributes pool step calls attrs.length)
      (attrs.flatMap WrittenAttribute.written)
      (attrs.mapM (WrittenAttribute.look pool step) >>= fun found =>
        pure (lastCalls calls found)) := by
  induction attrs generalizing calls with
  | nil => exact (Reads.pure calls).yields
  | cons attr attrs ih =>
    obtain ⟨hfit, hfits⟩ := List.forall_mem_cons.mp hfits
    have hread : Yields (callsInAttributes pool step calls (attr :: attrs).length) _ _ :=
      (yields_namedBody pool hfit).bind fun body _ =>
        Yields.lift_bind (callsInAttribute pool step body) fun found _ =>
          ih hfits (found.getD calls)
    rw [List.flatMap_cons, List.mapM_cons]
    simpa only [WrittenAttribute.look, lastCalls, List.foldl_cons, bind_assoc, pure_bind]
      using hread

theorem yields_member (pool : ConstantPool) {member : WrittenMember} (hfits : member.Fits) :
    Yields (ClassFile.member pool) member.written (member.resolve pool) := by
  have hattributes : List.Forall₂ (fun (attr : WrittenAttribute) value =>
      Reads skipAttribute attr.written value) member.attributes
      (member.attributes.map fun _ => ()) := by
    rw [List.forall₂_map_right_iff, List.forall₂_same]
    exact fun attr hmem => reads_skipAttribute (hfits.attributes attr hmem)
  refine (reads_u16 member.access).bind_yields ?_
  refine (yields_textReference pool member.name _).bind fun name _ => ?_
  refine (yields_textReference pool member.descriptor _).bind fun descriptor _ => ?_
  exact ((Reads.counted hattributes hfits.length).bind_pure _).yields

theorem yields_methodCalls (pool : ConstantPool) {method : WrittenMember} (hfits : method.Fits) :
    Yields (methodCalls pool) method.written (method.resolveCalls pool) := by
  refine (Reads.skip (Bytes.ofWord method.access)).bind_yields ?_
  refine (yields_textReference pool method.name _).bind fun name _ => ?_
  refine (yields_textReference pool method.descriptor _).bind fun descriptor _ => ?_
  refine (reads_u16_ofNat hfits.length).bind_yields ?_
  rw [UInt16.toNat_ofNat_of_lt' hfits.length]
  have hcalls : Yields (callsInAttributes pool (.body name descriptor) [] _) _ _ :=
    yields_callsInAttributes hfits.attributes _ _
  have hread := hcalls.bind_nil fun calls _ =>
    (Reads.pure (⟨name, descriptor, calls⟩ : MethodCalls)).yields
  simpa only [bind_assoc, pure_bind] using hread

/-- A text that is referred to takes an index. -/
theorem exists_of_textReference {step : Step} {name : String}
    (h : textReference pool step bytes = .ok (name, rest)) :
    ∃ index : UInt16, bytes = Bytes.ofWord index ++ rest := by
  obtain ⟨index, behind, hindex, h⟩ := exists_of_bind h
  obtain ⟨found, -, h⟩ := bind_eq_ok_iff.mp h
  obtain ⟨-, rfl⟩ := Prod.mk.inj (Except.ok.inj h)
  exact ⟨index, eq_append_of_u16 hindex⟩

/-- A name, a length and a body of this length are an attribute. -/
theorem exists_written {index : UInt16} {length : Nat} {body behind : Bytes}
    (hlength : u32 bytes = .ok (length, behind)) (hbody : behind = body ++ rest)
    (hcount : body.length = length) :
    ∃ attr : WrittenAttribute, attr.Fits ∧
      Bytes.ofWord index ++ bytes = attr.written ++ rest := by
  obtain ⟨hlt, rfl⟩ := eq_append_of_u32 hlength
  refine ⟨⟨index, body⟩, lt_of_eq_of_lt hcount hlt, ?_⟩
  simp only [WrittenAttribute.written, List.append_assoc, hbody, hcount]

theorem covers_skipAttribute : Covers skipAttribute WrittenAttribute.written
    WrittenAttribute.Fits := by
  intro bytes a rest h
  obtain ⟨⟨⟩, behind, hname, hbehind⟩ := exists_of_bind h
  obtain ⟨length, behind', hlength, hskip⟩ := exists_of_bind hbehind
  obtain ⟨index, rfl⟩ := exists_of_skip_two hname
  obtain ⟨body, hbody, hcount⟩ := exists_of_skip hskip
  exact exists_written hlength hbody hcount

theorem covers_namedBody : Covers (namedBody pool) WrittenAttribute.written
    WrittenAttribute.Fits := by
  intro bytes a rest h
  obtain ⟨name, behind, hname, hbehind⟩ := exists_of_bind h
  obtain ⟨length, behind', hlength, htake⟩ := exists_of_bind hbehind
  obtain ⟨body, behind'', hbody, hpure⟩ := exists_of_bind htake
  obtain ⟨-, rfl⟩ := Prod.mk.inj (Except.ok.inj hpure)
  obtain ⟨index, rfl⟩ := exists_of_textReference hname
  obtain ⟨hbody, hcount⟩ := eq_append_of_take hbody
  exact exists_written hlength hbody hcount

/-- Attributes that are looked into one by one were written one by one. -/
theorem exists_of_callsInAttributes {step : Step} {calls sites : List CallSite} {count : Nat}
    (h : callsInAttributes pool step calls count bytes = .ok (sites, rest)) :
    ∃ attrs : List WrittenAttribute, (∀ attr ∈ attrs, attr.Fits) ∧ attrs.length = count ∧
      bytes = attrs.flatMap WrittenAttribute.written ++ rest := by
  induction count generalizing bytes calls with
  | zero =>
    obtain ⟨-, rfl⟩ := Prod.mk.inj (Except.ok.inj h)
    exact ⟨[], by simp, rfl, rfl⟩
  | succ count ih =>
    obtain ⟨body, behind, hbody, hbehind⟩ := exists_of_bind h
    obtain ⟨found, -, hrest⟩ := exists_of_lift_bind hbehind
    obtain ⟨attr, hattr, rfl⟩ := covers_namedBody bytes body behind hbody
    obtain ⟨attrs, hattrs, rfl, rfl⟩ := ih hrest
    refine ⟨attr :: attrs, List.forall_mem_cons.mpr ⟨hattr, hattrs⟩, rfl, ?_⟩
    rw [List.flatMap_cons, List.append_assoc]

/-- An access word, two texts and counted attributes are a field or method. -/
theorem covers_member : Covers (member pool) WrittenMember.written WrittenMember.Fits := by
  intro bytes a rest h
  obtain ⟨access, behind, haccess, h₁⟩ := exists_of_bind h
  obtain ⟨_, behind₁, hname, h₂⟩ := exists_of_bind h₁
  obtain ⟨_, behind₂, hdescriptor, h₃⟩ := exists_of_bind h₂
  obtain ⟨_, behind₃, hattributes, h₄⟩ := exists_of_bind h₃
  obtain ⟨-, rfl⟩ := Prod.mk.inj (Except.ok.inj h₄)
  obtain rfl := eq_append_of_u16 haccess
  obtain ⟨name, rfl⟩ := exists_of_textReference hname
  obtain ⟨descriptor, rfl⟩ := exists_of_textReference hdescriptor
  obtain ⟨attrs, ⟨hattrs, hlength⟩, rfl⟩ := covers_skipAttribute.counted _ _ _ hattributes
  exact ⟨⟨access, name, descriptor, attrs⟩, ⟨hlength, hattrs⟩,
    by simp only [WrittenMember.written, List.append_assoc]⟩

theorem covers_methodCalls :
    Covers (methodCalls pool) WrittenMember.written WrittenMember.Fits := by
  intro bytes a rest h
  obtain ⟨⟨⟩, behind, haccess, h₁⟩ := exists_of_bind h
  obtain ⟨name, behind₁, hname, h₂⟩ := exists_of_bind h₁
  obtain ⟨descriptor, behind₂, hdescriptor, h₃⟩ := exists_of_bind h₂
  obtain ⟨count, behind₃, hcount, h₄⟩ := exists_of_bind h₃
  obtain ⟨calls, behind₄, hcalls, h₅⟩ := exists_of_bind h₄
  obtain ⟨-, rfl⟩ := Prod.mk.inj (Except.ok.inj h₅)
  obtain ⟨access, rfl⟩ := exists_of_skip_two haccess
  obtain ⟨index, rfl⟩ := exists_of_textReference hname
  obtain ⟨index', rfl⟩ := exists_of_textReference hdescriptor
  obtain rfl := eq_append_of_u16 hcount
  obtain ⟨attrs, hattrs, hlength, rfl⟩ := exists_of_callsInAttributes hcalls
  have hlt : attrs.length < 0x10000 := hlength ▸ count.toNat_lt
  refine ⟨⟨access, index, index', attrs⟩, ⟨hlt, hattrs⟩, ?_⟩
  simp only [WrittenMember.written, Bytes.ofList, hlength, List.append_assoc]
  rfl

/-! ## Layouts -/

/-- A header, fields and methods that bytes start with.  The header ends where it is read to the
end; everything behind it ends where its counts and lengths say. -/
structure Layout (bytes : Bytes) where
  header : Header
  fields : List WrittenMember
  methods : List WrittenMember
  front : Bytes
  rest : Bytes
  reads_header : Reads ClassFile.header front header
  eq_append : bytes = front ++ (Bytes.ofList WrittenMember.written fields ++
    (Bytes.ofList WrittenMember.written methods ++ rest))
  fits_fields : ∀ field ∈ fields, field.Fits
  fields_length : fields.length < 0x10000
  fits_methods : ∀ method ∈ methods, method.Fits
  methods_length : methods.length < 0x10000

namespace Layout

/-- Behind a header, fields and methods were written. -/
theorem exists_of_header {header : Header} {behind behind' rest : Bytes} {fields : List Member}
    {α : Type} {reader : Skim α} {as : List α}
    (hheader : ClassFile.header bytes = .ok (header, behind))
    (hfields : members header.pool .fields behind = .ok (fields, behind'))
    (hreader : Covers reader WrittenMember.written WrittenMember.Fits)
    (hmethods : Skim.counted reader behind' = .ok (as, rest)) :
    Nonempty (Layout bytes) := by
  obtain ⟨front, rfl, hfront⟩ := isFrugal_header bytes header behind hheader
  obtain ⟨fields, ⟨hfit, hlength⟩, rfl⟩ :=
    covers_member.counted _ _ _ (Outcome.during_eq_ok_iff.mp hfields)
  obtain ⟨methods, ⟨hfit', hlength'⟩, rfl⟩ := hreader.counted _ _ _ hmethods
  exact ⟨⟨header, fields, methods, front, rest, hfront.reads, rfl, hfit, hlength, hfit', hlength'⟩⟩

/-- **A file in which a class is read has a layout.** -/
theorem exists_of_read {declaration : ClassDeclaration}
    (h : ClassDeclaration.read bytes = .ok declaration) : Nonempty (Layout bytes) := by
  obtain ⟨⟨_, rest⟩, hread, rfl⟩ := map_eq_ok_iff.mp h
  obtain ⟨header, behind, hheader, h₁⟩ := exists_of_bind hread
  obtain ⟨fields, behind₁, hfields, h₂⟩ := exists_of_bind h₁
  obtain ⟨methods, behind₂, hmethods, -⟩ := exists_of_bind h₂
  exact exists_of_header hheader hfields covers_member (Outcome.during_eq_ok_iff.mp hmethods)

/-- **A file in which calls are found by skimming has a layout.** -/
theorem exists_of_skim {calls : ClassCalls} (h : ClassCalls.skim bytes = .ok calls) :
    Nonempty (Layout bytes) := by
  obtain ⟨⟨_, rest⟩, hread, rfl⟩ := map_eq_ok_iff.mp h
  obtain ⟨header, behind, hheader, h₁⟩ := exists_of_bind hread
  obtain ⟨fields, behind₁, hfields, h₂⟩ := exists_of_bind h₁
  obtain ⟨methods, behind₂, hmethods, -⟩ := exists_of_bind h₂
  exact exists_of_header hheader hfields covers_methodCalls hmethods

variable (layout : Layout bytes)

/-- What is made of the fields. -/
theorem yields_fields (step : Step) : Yields (members layout.header.pool step)
    (Bytes.ofList WrittenMember.written layout.fields)
    ((layout.fields.mapM (WrittenMember.resolve layout.header.pool)).during step) :=
  (Yields.counted (fun field hmem => yields_member _ (layout.fits_fields field hmem))
    layout.fields_length).during step

/-- **What skimming makes of a layout**, whether it goes well or not. -/
theorem skim_eq : ClassCalls.skim bytes = (do
    let _ ← (layout.fields.mapM (WrittenMember.resolve layout.header.pool)).during .fields
    let methods ← layout.methods.mapM (WrittenMember.resolveCalls layout.header.pool)
    return { name := layout.header.name, methods }) := by
  have hread : Yields classCalls _ _ :=
    layout.reads_header.bind_yields <| (layout.yields_fields .fields).bind fun _ _ =>
      (Yields.counted (fun method hmem => yields_methodCalls layout.header.pool
        (layout.fits_methods method hmem)) layout.methods_length).bind_nil fun methods _ =>
          (Reads.pure (⟨layout.header.name, methods⟩ : ClassCalls)).yields
  have hbytes := layout.eq_append
  rw [← List.append_assoc (Bytes.ofList _ layout.fields), ← List.append_assoc] at hbytes
  exact (congrArg classCalls.within hbytes).trans (hread.within_append layout.rest)

/-- The calls that are found in a layout are those of its methods. -/
theorem resolveCalls_eq_ok {calls : ClassCalls} (h : ClassCalls.skim bytes = .ok calls) :
    calls.name = layout.header.name ∧
      layout.methods.mapM (WrittenMember.resolveCalls layout.header.pool) = .ok calls.methods := by
  rw [layout.skim_eq] at h
  obtain ⟨_, -, hbehind⟩ := bind_eq_ok_iff.mp h
  obtain ⟨methods, hmethods, hcalls⟩ := bind_eq_ok_iff.mp hbehind
  obtain rfl := Except.ok.inj hcalls
  exact ⟨rfl, hmethods⟩

/-- The class that is read in a layout has the name of its header, and the members of its
indices. -/
theorem members_eq_ok {declaration : ClassDeclaration}
    (h : ClassDeclaration.read bytes = .ok declaration) :
    declaration.name = layout.header.name ∧
      layout.fields.mapM (WrittenMember.resolve layout.header.pool) = .ok declaration.fields ∧
      layout.methods.mapM (WrittenMember.resolve layout.header.pool) = .ok declaration.methods := by
  obtain ⟨⟨_, rest⟩, hread, rfl⟩ := map_eq_ok_iff.mp h
  obtain ⟨header, behind, hheader, h₁⟩ := exists_of_bind hread
  rw [layout.eq_append] at hheader
  obtain ⟨rfl, rfl⟩ := Prod.mk.inj (Except.ok.inj ((layout.reads_header _).symm.trans hheader))
  obtain ⟨fields, behind₁, hfields, h₂⟩ := exists_of_bind h₁
  obtain ⟨methods, behind₂, hmethods, h₃⟩ := exists_of_bind h₂
  obtain ⟨count, behind₃, -, h₄⟩ := exists_of_bind h₃
  obtain ⟨access, behind₄, -, h₅⟩ := exists_of_bind h₄
  obtain ⟨rfl, -⟩ := Prod.mk.inj (Except.ok.inj h₅)
  obtain ⟨hresolved, rfl⟩ := (layout.yields_fields .fields).eq_ok_of_append hfields
  have hyields : Yields (members layout.header.pool .methods) _ _ :=
    (Yields.counted (fun method hmem => yields_member _ (layout.fits_methods method hmem))
      layout.methods_length).during .methods
  obtain ⟨hresolved', -⟩ := hyields.eq_ok_of_append hmethods
  exact ⟨rfl, Outcome.during_eq_ok_iff.mp hresolved, Outcome.during_eq_ok_iff.mp hresolved'⟩

end Layout

end ClassFile

end AccessTransformer
