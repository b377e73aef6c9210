import AccessTransformer.Proofs.ClassFile.Carrying
import AccessTransformer.Proofs.ClassFile.DocumentPool
import AccessTransformer.Proofs.ClassFile.Withheld

/-!
# Headers that are skimmed and dissected

Skimming and dissecting take the header of a class file apart in the same way, for its constants
tell by their tags alone how long they are.  So where both go well they stop at the same place, and
what skimming has kept of the pool is what dissecting has kept as well.  They do take different
texts for texts; but skimming takes modified UTF-8 only, and no bytes are another text in UTF-8.

* `Alike`: what a skimming and a dissecting reader make of the same bytes.
* `Alike.bind`, `Alike.counted`: readers in a row, and as often as a count says.
* `ConstantPool.KeepsAll`: a skimmed pool has all that it should have of a dissected one.
* `alike_header`: the headers.
* `KeepsAll.method_eq_ok`, `KeepsAll.callSites_eq_ok`: what an index stands for in either pool.
-/

namespace AccessTransformer.ClassFile

section Readers

variable {α β γ δ : Type}

/-- Whether a skimming and a dissecting reader that both find something in bytes stop at the same
place in them, with values that belong together. -/
def Alike (skim : Skim α) (dissect : Dissect β) (R : α → β → Prop) : Prop :=
  ∀ bytes position a rest b place, skim bytes = .ok (a, rest) →
    dissect ⟨position, bytes⟩ = .ok (b, place) → R a b ∧ place.rest = rest

namespace Alike

variable {skim : Skim α} {dissect : Dissect β} {R : α → β → Prop} {S : γ → δ → Prop}
  {next : α → Skim γ} {next' : β → Dissect δ}

theorem pure {a : α} {b : β} (h : R a b) : Alike (Pure.pure a) (Pure.pure b) R := by
  intro bytes position a' rest b' place ha hb
  obtain ⟨rfl, rfl⟩ := Prod.mk.inj (Except.ok.inj ha)
  obtain ⟨rfl, rfl⟩ := Prod.mk.inj (Except.ok.inj hb)
  exact ⟨h, rfl⟩

/-- A failure is like nothing. -/
theorem fail_left (cause : Cause) : Alike (liftM (Outcome.fail cause : Outcome α)) dissect R :=
  fun _ _ _ _ _ _ h => nomatch h

/-- Readers and then others. -/
theorem bind (h : Alike skim dissect R) (h' : ∀ a b, R a b → Alike (next a) (next' b) S) :
    Alike (skim >>= next) (dissect >>= next') S := by
  intro bytes position c rest d place hskim hdissect
  obtain ⟨⟨a, behind⟩, ha, hc⟩ := bind_eq_ok_iff.mp hskim
  obtain ⟨⟨b, middle⟩, hb, hd⟩ := bind_eq_ok_iff.mp hdissect
  obtain ⟨hR, rfl⟩ := h bytes position a behind b middle ha hb
  exact h' a b hR middle.rest middle.position c rest d place hc hd

/-- Values made of those that are found. -/
theorem bind_pure {f : α → γ} {g : β → δ} (h : Alike skim dissect R)
    (h' : ∀ a b, R a b → S (f a) (g b)) :
    Alike (skim >>= fun a => Pure.pure (f a)) (dissect >>= fun b => Pure.pure (g b)) S :=
  h.bind fun a b hR => Alike.pure (h' a b hR)

/-- An outcome that takes no bytes, in front of skimming. -/
theorem lift_bind_left {outcome : Outcome α} {dissect : Dissect δ}
    (h : ∀ a, outcome = .ok a → Alike (next a) dissect S) :
    Alike (liftM outcome >>= next) dissect S := by
  cases outcome with
  | error failure => exact fun _ _ _ _ _ _ h => nomatch h
  | ok a => exact h a rfl

/-- An outcome that takes no bytes, in front of dissecting. -/
theorem lift_bind_right {outcome : Except FormFault β} {skim : Skim γ}
    (h : ∀ b, outcome = .ok b → Alike skim (next' b) S) :
    Alike skim (liftM outcome >>= next') S := by
  cases outcome with
  | error fault => exact fun _ _ _ _ _ _ _ h => nomatch h
  | ok b => exact h b rfl

theorem during (h : Alike skim dissect R) (step : Step) : Alike (Skim.during step skim) dissect R :=
  fun bytes position a rest b place ha hb =>
    h bytes position a rest b place (Outcome.during_eq_ok_iff.mp ha) hb

/-- What skimming makes of a value that it has found takes no bytes. -/
theorem bind_lift (h : Alike skim dissect R) (f : α → Outcome γ) :
    Alike (skim >>= fun a => liftM (f a)) dissect fun _ _ => True := by
  intro bytes position c rest b place hskim hb
  obtain ⟨⟨a, behind⟩, ha, hc⟩ := bind_eq_ok_iff.mp hskim
  obtain ⟨-, rfl⟩ := h bytes position a behind b place ha hb
  obtain ⟨_, -, hrest⟩ := bind_eq_ok_iff.mp hc
  exact ⟨trivial, (Prod.mk.inj (Except.ok.inj hrest)).2⟩

/-- As many times as is known before. -/
theorem times (h : Alike skim dissect R) (count : Nat) :
    Alike (ClassFile.times skim count) (ClassFile.times dissect count) (List.Forall₂ R) := by
  induction count with
  | zero => exact Alike.pure .nil
  | succ count ih => exact h.bind fun a b hR => ih.bind_pure fun as bs hRs => .cons hR hRs

end Alike

/-! ## Single values -/

theorem alike_u8 : Alike Skim.u8 Dissect.u8 Eq := by
  intro bytes position a rest b place ha hb
  rcases bytes with _ | ⟨byte, bytes⟩
  · cases ha
  · obtain ⟨rfl, rfl⟩ := Prod.mk.inj (Except.ok.inj ha)
    obtain ⟨rfl, rfl⟩ := Prod.mk.inj (Except.ok.inj hb)
    exact ⟨rfl, rfl⟩

theorem alike_u16 : Alike Skim.u16 Dissect.u16 Eq := by
  intro bytes position a rest b place ha hb
  rcases bytes with _ | ⟨high, _ | ⟨low, bytes⟩⟩
  · cases ha
  · cases ha
  · obtain ⟨rfl, rfl⟩ := Prod.mk.inj (Except.ok.inj ha)
    obtain ⟨rfl, rfl⟩ := Prod.mk.inj (Except.ok.inj hb)
    exact ⟨rfl, rfl⟩

theorem alike_u32 : Alike Skim.u32 Dissect.u32 Eq := by
  intro bytes position value rest value' place hvalue hvalue'
  rcases bytes with _ | ⟨a, _ | ⟨b, _ | ⟨c, _ | ⟨d, bytes⟩⟩⟩⟩
  · cases hvalue
  · cases hvalue
  · cases hvalue
  · cases hvalue
  · obtain ⟨rfl, rfl⟩ := Prod.mk.inj (Except.ok.inj hvalue)
    obtain ⟨rfl, rfl⟩ := Prod.mk.inj (Except.ok.inj hvalue')
    exact ⟨rfl, rfl⟩

theorem alike_take (count : Nat) : Alike (Skim.take count) (Dissect.block count) Eq := by
  intro bytes position a rest b place ha hb
  obtain ⟨rfl, hlength⟩ := Skim.eq_append_of_take ha
  obtain ⟨hbytes, hlength'⟩ := Dissect.eq_append_of_block hb
  obtain ⟨rfl, rfl⟩ := List.append_inj hbytes (hlength.trans hlength'.symm)
  exact ⟨rfl, rfl⟩

/-- **Readers are alike as often as a count in front says.** -/
theorem Alike.counted {skim : Skim α} {dissect : Dissect β} {R : α → β → Prop}
    (h : Alike skim dissect R) :
    Alike (Skim.counted skim) (Dissect.counted16 dissect) (List.Forall₂ R) := by
  refine alike_u16.bind fun count count' heq => ?_
  subst heq
  exact h.times count.toNat

/-! ## Passing over bytes -/

/-- Whether a skimming reader takes just so many bytes. -/
def Skim.Takes (reader : Skim α) (count : Nat) : Prop :=
  ∀ bytes a rest, reader bytes = .ok (a, rest) →
    ∃ front, bytes = front ++ rest ∧ front.length = count

/-- Whether a dissecting reader takes just so many bytes. -/
def Dissect.Takes (reader : Dissect β) (count : Nat) : Prop :=
  ∀ bytes position b place, reader ⟨position, bytes⟩ = .ok (b, place) →
    ∃ front, bytes = front ++ place.rest ∧ front.length = count

/-- Readers that take as many bytes stop at the same place. -/
theorem Alike.of_takes {skim : Skim α} {dissect : Dissect β} {count : Nat} (h : skim.Takes count)
    (h' : dissect.Takes count) : Alike skim dissect fun _ _ => True := by
  intro bytes position a rest b place ha hb
  obtain ⟨front, rfl, hlength⟩ := h _ a rest ha
  obtain ⟨front', hbytes, hlength'⟩ := h' _ position b place hb
  exact ⟨trivial, (List.append_inj hbytes (hlength.trans hlength'.symm)).2.symm⟩

theorem Skim.takes_skip (count : Nat) : (Skim.skip count).Takes count :=
  fun _ _ _ h => Skim.exists_of_skip h

theorem Skim.takes_u16 : Skim.u16.Takes 2 :=
  fun _ _ _ h => ⟨_, Skim.eq_append_of_u16 h, Bytes.length_bigEndian 2 _⟩

namespace Dissect.Takes

theorem bind {reader : Dissect α} {next : α → Dissect β} {count count' : Nat}
    (h : reader.Takes count) (h' : ∀ a, (next a).Takes count') :
    (reader >>= next).Takes (count + count') := by
  intro bytes position b place hread
  obtain ⟨⟨a, middle⟩, hfirst, hsecond⟩ := bind_eq_ok_iff.mp hread
  obtain ⟨front, rfl, rfl⟩ := h _ position a middle hfirst
  obtain ⟨front', hrest, rfl⟩ := h' a _ middle.position b place hsecond
  exact ⟨front ++ front', by rw [hrest, List.append_assoc], List.length_append⟩

theorem pure (b : β) : Takes (Pure.pure b) 0 := by
  intro bytes position a place h
  obtain ⟨-, rfl⟩ := Prod.mk.inj (Except.ok.inj h)
  exact ⟨[], rfl, rfl⟩

theorem bind_pure {reader : Dissect α} {count : Nat} (h : reader.Takes count) (f : α → β) :
    Takes (reader >>= fun a => Pure.pure (f a)) count :=
  h.bind fun a => Takes.pure (f a)

theorem times {reader : Dissect α} {count : Nat} (h : reader.Takes count) (number : Nat) :
    Takes (ClassFile.times reader number) (number * count) := by
  induction number with
  | zero =>
    rw [Nat.zero_mul]
    exact Takes.pure []
  | succ number ih =>
    rw [Nat.succ_mul, Nat.add_comm (number * count)]
    exact h.bind fun first => ih.bind_pure (first :: ·)

end Dissect.Takes

namespace Dissect

theorem takes_u8 : u8.Takes 1 := by
  intro bytes position a place h
  rcases bytes with _ | ⟨byte, bytes⟩
  · cases h
  · obtain ⟨rfl, rfl⟩ := Prod.mk.inj (Except.ok.inj h)
    exact ⟨[byte], rfl, rfl⟩

theorem takes_u16 : u16.Takes 2 := by
  intro bytes position a place h
  rcases bytes with _ | ⟨high, _ | ⟨low, bytes⟩⟩
  · cases h
  · cases h
  · obtain ⟨rfl, rfl⟩ := Prod.mk.inj (Except.ok.inj h)
    exact ⟨[high, low], rfl, rfl⟩

theorem takes_u32 : u32.Takes 4 := by
  intro bytes position value place h
  rcases bytes with _ | ⟨a, _ | ⟨b, _ | ⟨c, _ | ⟨d, bytes⟩⟩⟩⟩
  · cases h
  · cases h
  · cases h
  · cases h
  · obtain ⟨rfl, rfl⟩ := Prod.mk.inj (Except.ok.inj h)
    exact ⟨[a, b, c, d], rfl, rfl⟩

theorem takes_u64 : u64.Takes 8 := by
  intro bytes position value place h
  unfold u64 at h
  split at h
  · rename_i a b c d e f g h' rest hbytes
    obtain ⟨rfl, rfl⟩ := Prod.mk.inj (Except.ok.inj h)
    exact ⟨[a, b, c, d, e, f, g, h'], hbytes, rfl⟩
  · cases h

theorem takes_block (count : Nat) : (block count).Takes count :=
  fun _ _ front _ h => ⟨front, eq_append_of_block h⟩

theorem takes_words (count : Nat) : (words count).Takes (count * 2) :=
  (takes_u16.times count).bind_pure fun _ => ()

end Dissect

end Readers

/-! ## Constants -/

open ConstantPool

/-- A text that is taken both strictly and leniently is one text. -/
theorem Document.eq_of_text_eq_ok {bytes : Bytes} {value value' : String}
    (h : ModifiedUtf8.decode bytes = .ok value) (h' : Document.text bytes = .ok value') :
    value' = value := by
  rw [ModifiedUtf8.eq_encode_of_decode_eq_ok h, Document.text_encode] at h'
  exact (Except.ok.inj h').symm

/-- One index behind the tag of a constant. -/
theorem alike_index {slot : UInt16 → Slot} {constant : UInt16 → Constant}
    (h : ∀ index, slot index = slotOf (constant index)) :
    Alike (do return (slot (← Skim.u16), false)) (do return (constant (← Dissect.u16), false))
      fun found found' => found = (slotOf found'.1, found'.2) :=
  alike_u16.bind_pure fun index index' heq => by rw [heq, h]

/-- Two indices behind the tag of a constant. -/
theorem alike_indices {slot : UInt16 → UInt16 → Slot} {constant : UInt16 → UInt16 → Constant}
    (h : ∀ first second, slot first second = slotOf (constant first second)) :
    Alike (do return (slot (← Skim.u16) (← Skim.u16), false))
      (do return (constant (← Dissect.u16) (← Dissect.u16), false))
      fun found found' => found = (slotOf found'.1, found'.2) :=
  alike_u16.bind fun first first' heq => alike_u16.bind_pure fun second second' heq' => by
    rw [heq, heq', h]

/-- A constant that is passed over. -/
theorem alike_skipped {α : Type} {dissect : Dissect α} {count : Nat} {constant : α → Constant}
    (wide : Bool) (hskip : dissect.Takes count) (h : ∀ a, slotOf (constant a) = .other) :
    Alike (do Skim.skip count; return (.other, wide)) (do return (constant (← dissect), wide))
      fun found found' => found = (slotOf found'.1, found'.2) :=
  (Alike.of_takes (Skim.takes_skip count) hskip).bind_pure fun _ a _ => by rw [h]

/-- A constant of two parts that is passed over. -/
theorem alike_skipped_pair {α β : Type} {first : Dissect α} {second : Dissect β}
    {count count' : Nat}
    {constant : α → β → Constant} (hfirst : first.Takes count) (hsecond : second.Takes count')
    (h : ∀ a b, slotOf (constant a b) = .other) :
    Alike (do Skim.skip (count + count'); return (.other, false))
      (do return (constant (← first) (← second), false))
      fun found found' => found = (slotOf found'.1, found'.2) := by
  have hboth : Dissect.Takes (do return (← first, ← second)) (count + count') :=
    hfirst.bind fun a => hsecond.bind_pure fun b => (a, b)
  have hskipped := alike_skipped false hboth fun parts => h parts.1 parts.2
  simpa only [bind_assoc, pure_bind] using hskipped

/-- **A constant that is skimmed and dissected is the same**, as far as skimming keeps it. -/
theorem alike_constant (index : Nat) (tag : UInt8) :
    Alike (ConstantPool.constant index tag) (Document.constant tag)
      fun found found' => found = (slotOf found'.1, found'.2) := by
  unfold ConstantPool.constant
  split
  case h_18 => exact Alike.fail_left _
  -- the tag is known, so both readers are
  all_goals
    rename_i htag
    simp only [Document.constant, htag]
  · refine alike_u16.bind fun length length' heq => ?_
    subst heq
    refine (alike_take length.toNat).bind fun bytes bytes' heq => ?_
    subst heq
    refine Alike.lift_bind_left fun value hvalue => Alike.lift_bind_right fun value' hvalue' => ?_
    rw [Outcome.during_eq_ok_iff, Outcome.lift_eq_ok_iff] at hvalue
    obtain rfl := Document.eq_of_text_eq_ok hvalue hvalue'
    exact Alike.pure rfl
  · exact alike_index fun _ => rfl
  iterate 3 exact alike_indices fun _ _ => rfl
  · exact alike_skipped _ Dissect.takes_u32 fun _ => rfl
  · exact alike_skipped _ (Dissect.takes_block 4) fun _ => rfl
  · exact alike_skipped _ Dissect.takes_u64 fun _ => rfl
  · exact alike_skipped _ (Dissect.takes_block 8) fun _ => rfl
  iterate 4 exact alike_skipped _ Dissect.takes_u16 fun _ => rfl
  iterate 3 exact alike_skipped_pair Dissect.takes_u16 Dissect.takes_u16 fun _ _ => rfl
  · exact alike_skipped_pair Dissect.takes_u8 Dissect.takes_u16 fun _ _ => rfl

/-- **Pools are alike slot by slot.** -/
theorem alike_slotsFrom (index count : Nat) :
    Alike (ConstantPool.slotsFrom index count) (Document.constants count)
      fun slots constants => slots = constants.map slotOf := by
  fun_induction ConstantPool.slotsFrom index count with
  | case1 => exact Alike.pure rfl
  | case2 index =>
    refine alike_u8.bind fun tag tag' heq => ?_
    subst heq
    refine (alike_constant index tag).bind_pure fun found found' heq => ?_
    subst heq
    rfl
  | case3 index count ihWide ih =>
    refine alike_u8.bind fun tag tag' heq => ?_
    subst heq
    refine (alike_constant index tag).bind fun found found' heq => ?_
    subst heq
    obtain ⟨constant, wide⟩ := found'
    cases wide with
    | true => exact ihWide.bind_pure fun slots constants heq => by rw [heq]; rfl
    | false => exact ih.bind_pure fun slots constants heq => by rw [heq]; rfl

/-- Whether a skimmed pool has all that it should have of a dissected one. -/
def ConstantPool.KeepsAll (pool : ConstantPool) (constants : Array Constant) : Prop :=
  ∀ (index : Nat) (constant : Constant), constants[index]? = some constant →
    pool.slots[index]? = some (slotOf constant)

/-- **Pools are alike.**  A pool that counts no index at all has none when it is dissected, and an
empty one when it is skimmed. -/
theorem alike_constantPool :
    Alike ConstantPool.read Document.constantPool ConstantPool.KeepsAll := by
  refine alike_u16.bind fun count count' heq => ?_
  subst heq
  cases hcount : count.toNat with
  | zero =>
    refine Alike.pure fun index constant hconstant => ?_
    rw [List.getElem?_toArray, List.getElem?_nil] at hconstant
    cases hconstant
  | succ count =>
    refine (alike_slotsFrom 1 count).bind_pure
      fun slots constants heq index constant hconstant => ?_
    subst heq
    rw [List.getElem?_toArray] at hconstant ⊢
    rw [show Slot.other = slotOf .empty from rfl, ← List.map_cons, List.getElem?_map, hconstant]
    rfl

/-! ## Headers -/

/-- **Headers are alike**, and so are the names in them. -/
theorem alike_header : Alike header Document.header fun found found' =>
    found.pool.KeepsAll found'.1 ∧ found.pool.className found'.2 = .ok found.name := by
  refine alike_u32.bind fun number number' heq => ?_
  subst heq
  have hbehind : Alike (do
      Skim.skip 4
      let pool ← Skim.during .readPool ConstantPool.read
      let access ← Skim.u16
      let this ← Skim.u16
      let super ← Skim.u16
      let name ← (pool.className this).during .className
      let superclass ← superclassName pool super
      let interfaces ← Skim.counted (classReference pool .interfaceName)
      return ({ pool, access, name, superclass, interfaces } : Header)) (do
      Dissect.words 2
      let pool ← Document.constantPool
      Dissect.words 1
      let thisClass ← Dissect.u16
      Dissect.words 1
      let _ ← Dissect.counted16 Dissect.u16
      return (pool, thisClass)) fun found found' =>
        found.pool.KeepsAll found'.1 ∧ found.pool.className found'.2 = .ok found.name := by
    refine (Alike.of_takes (Skim.takes_skip 4) (Dissect.takes_words 2)).bind fun _ _ _ => ?_
    refine (alike_constantPool.during .readPool).bind fun pool constants hpool => ?_
    refine (Alike.of_takes Skim.takes_u16 (Dissect.takes_words 1)).bind fun _ _ _ => ?_
    refine alike_u16.bind fun this this' heq => ?_
    subst heq
    refine (Alike.of_takes Skim.takes_u16 (Dissect.takes_words 1)).bind fun _ _ _ => ?_
    refine Alike.lift_bind_left fun name hname => Alike.lift_bind_left fun superclass _ => ?_
    refine (alike_u16.bind_lift _).counted.bind_pure fun _ _ _ => ?_
    exact ⟨hpool, Outcome.during_eq_ok_iff.mp hname⟩
  split
  · exact Alike.lift_bind_left fun _ h => nomatch h
  · rename_i hmagic
    rw [if_neg (show ¬ number ≠ 0xCAFEBABE from hmagic)]
    exact hbehind

/-! ## Resolving -/

namespace ConstantPool.KeepsAll

variable {pool : ConstantPool} {document : Document} {index : UInt16} {value : String}

theorem isText_of_textAt (h : pool.KeepsAll document.pool)
    (htext : document.textAt index = .ok value) :
    pool.IsText index value := by
  unfold Document.textAt at htext
  split at htext
  · rename_i found hfound
    obtain rfl := Except.ok.inj htext
    exact h _ _ hfound
  · cases htext
  · cases htext

theorem isClass_of_classNameAt (h : pool.KeepsAll document.pool)
    (hclass : document.classNameAt index = .ok value) : pool.IsClass index value := by
  unfold Document.classNameAt at hclass
  split at hclass
  · rename_i name hname
    exact ⟨name, h _ _ hname, h.isText_of_textAt hclass⟩
  · cases hclass
  · cases hclass

theorem getElem?_of_methodRefAt (h : pool.KeepsAll document.pool) {owned typed : UInt16}
    (hreference : document.methodRefAt index = .ok (owned, typed)) :
    pool.slots[index.toNat]? = some (.methodRef owned typed) := by
  unfold Document.methodRefAt at hreference
  split at hreference
  · rename_i owner typed' hfound
    obtain ⟨rfl, rfl⟩ := Prod.mk.inj (Except.ok.inj hreference)
    exact h _ _ hfound
  · rename_i owner typed' hfound
    obtain ⟨rfl, rfl⟩ := Prod.mk.inj (Except.ok.inj hreference)
    exact h _ _ hfound
  · cases hreference
  · cases hreference

theorem getElem?_of_nameAndTypeAt (h : pool.KeepsAll document.pool) {named described : UInt16}
    (htyped : document.nameAndTypeAt index = .ok (named, described)) :
    pool.slots[index.toNat]? = some (.nameAndType named described) := by
  unfold Document.nameAndTypeAt at htyped
  split at htyped
  · rename_i name descriptor hfound
    obtain ⟨rfl, rfl⟩ := Prod.mk.inj (Except.ok.inj htyped)
    exact h _ _ hfound
  · cases htyped
  · cases htyped

/-- **What an index stands for as a method in a dissected pool, it does in the skimmed one.** -/
theorem method_eq_ok (h : pool.KeepsAll document.pool) {found : String × String × String}
    (hmethod : document.methodAt index = .ok found) : pool.method index = .ok found := by
  simp only [Document.methodAt, bind_eq_ok_iff, Outcome.during_eq_ok_iff, Prod.exists] at hmethod
  obtain ⟨owned, typed, hreference, owner, howner, named, described, htyped, name, hname,
    descriptor, hdescriptor, hvalue⟩ := hmethod
  obtain rfl := Except.ok.inj hvalue
  exact method_eq_ok_iff_isMethod.mpr ⟨owned, typed, named, described,
    h.getElem?_of_methodRefAt hreference, h.getElem?_of_nameAndTypeAt htyped,
    h.isClass_of_classNameAt howner, h.isText_of_textAt hname, h.isText_of_textAt hdescriptor⟩

/-- **The call sites of a body are told by either pool.** -/
theorem callSites_eq_ok (h : pool.KeepsAll document.pool) {body : Bytes} {sites : List CallSite}
    (hsites : callSites document.methodAt body = .ok sites) :
    callSites pool.method body = .ok sites := by
  simp only [callSites, bind_eq_ok_iff] at hsites ⊢
  obtain ⟨calls, hcalls, hsites⟩ := hsites
  refine ⟨calls, hcalls, mapM_eq_ok ((mapM_eq_ok_iff.mp hsites).imp fun call site hsite => ?_)⟩
  simp only [bind_eq_ok_iff, Outcome.during_eq_ok_iff] at hsite ⊢
  obtain ⟨found, hfound, hsite⟩ := hsite
  exact ⟨found, h.method_eq_ok hfound, hsite⟩

/-- The name of an attribute is told by either pool. -/
theorem isText_of_name {constants : Array Constant} (h : pool.KeepsAll constants)
    (hname : Attribute.name constants index = .ok value) : pool.IsText index value := by
  unfold Attribute.name at hname
  split at hname
  · rename_i found hfound
    obtain rfl := Except.ok.inj hname
    exact h _ _ hfound
  · cases hname
  · cases hname

end ConstantPool.KeepsAll

end AccessTransformer.ClassFile
