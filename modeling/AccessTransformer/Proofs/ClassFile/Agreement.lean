import AccessTransformer.Proofs.ClassFile.Alike
import AccessTransformer.Proofs.ClassFile.DocumentCalls

/-!
# Calls that are found in two ways

Dissecting goes by the forms of attributes, and skimming by their lengths.  So they see the same
file where each attribute ends with its form; where one does not, what follows it is shifted for the
one and not for the other.  And they make the same of it where no method has two bodies, of which
dissecting would take the first and skimming the last.

* `WrittenAttribute.EndsByForm`: an attribute ends where its form does.
* `Layout.IsFaithful`: so do all attributes in a file, and no method has two bodies.
* `Attribute.look_eq_ok`: what skimming makes of an attribute that is dissected.
* `calls_eq_of_isFaithful`: in a faithful file, dissecting and skimming find the same calls.
* `findsOtherCalls_of_unfaithful`: in others they need not.
-/

namespace AccessTransformer.ClassFile

/-! ## Taking a dissection apart -/

namespace Dissect

variable {α β : Type} {bytes : Bytes} {place place' : Place} {b : β}

/-- What a reader of two parts has found, its parts have. -/
theorem exists_of_bind {reader : Dissect α} {next : α → Dissect β}
    (h : (reader >>= next) place = .ok (b, place')) :
    ∃ a middle, reader place = .ok (a, middle) ∧ next a middle = .ok (b, place') := by
  obtain ⟨⟨a, middle⟩, hfirst, hsecond⟩ := bind_eq_ok_iff.mp h
  exact ⟨a, middle, hfirst, hsecond⟩

/-- An outcome that takes no bytes leaves them all. -/
theorem exists_of_lift_bind {outcome : Except FormFault α} {next : α → Dissect β}
    (h : ((liftM outcome : Dissect α) >>= next) place = .ok (b, place')) :
    ∃ a, outcome = .ok a ∧ next a place = .ok (b, place') := by
  cases outcome with
  | error fault => cases h
  | ok a => exact ⟨a, rfl, h⟩

/-- What is read of bytes is what is found in front of any others. -/
theorem Reads.eq_of_rest_eq {reader : Dissect α} {a a' : α} {more : Bytes}
    (h : Reads reader bytes a) (hrest : place.rest = bytes ++ more)
    (h' : reader place = .ok (a', place')) :
    a' = a ∧ place'.rest = more := by
  obtain ⟨position, behind⟩ := place
  subst hrest
  obtain ⟨rfl, rfl⟩ := Prod.mk.inj (Except.ok.inj ((h position more).symm.trans h'))
  exact ⟨rfl, rfl⟩

theorem eq_append_of_u32 {value : Nat} (h : u32 place = .ok (value, place')) :
    value < 0x100000000 ∧ place.rest = Bytes.bigEndian 4 value ++ place'.rest := by
  obtain ⟨position, bytes⟩ := place
  rcases bytes with _ | ⟨a, _ | ⟨b, _ | ⟨c, _ | ⟨d, bytes⟩⟩⟩⟩
  · cases h
  · cases h
  · cases h
  · cases h
  · obtain ⟨rfl, rfl⟩ := Prod.mk.inj (Except.ok.inj h)
    rw [Bytes.bigEndian_doubleWord]
    exact ⟨Bytes.doubleWord_lt a b c d, rfl⟩

end Dissect

open Dissect

/-! ## Attributes -/

/-- Whether an attribute that is dissected by itself ends with its bytes. -/
def WrittenAttribute.EndsByForm (constants : Array Constant) (attr : WrittenAttribute) : Prop :=
  ∃ found place, Attribute.nested constants attr.written.length (Place.start attr.written)
    = .ok (found, place) ∧ place.rest = []

instance (constants : Array Constant) (attr : WrittenAttribute) :
    Decidable (attr.EndsByForm constants) :=
  match h : Attribute.nested constants attr.written.length (Place.start attr.written) with
  | .ok (found, ⟨position, []⟩) => isTrue ⟨found, ⟨position, []⟩, h, rfl⟩
  | .ok (_, ⟨_, _ :: _⟩) => isFalse fun ⟨_, _, hread, hrest⟩ => by
    obtain ⟨-, rfl⟩ := Prod.mk.inj (Except.ok.inj (h.symm.trans hread))
    cases hrest
  | .error _ => isFalse fun ⟨_, _, hread, _⟩ => nomatch h.symm.trans hread

namespace Attribute

variable {constants : Array Constant} {pool : ConstantPool} {attr : WrittenAttribute}
  {attrs : List WrittenAttribute} {found : Attribute}

/-- What dissecting makes of an attribute in any file, at all levels that are enough for it. -/
def IsDissected (constants : Array Constant) (attr : WrittenAttribute) (found : Attribute) : Prop :=
  ∀ levels, attr.written.length ≤ levels → Reads (nested constants levels) attr.written found

theorem exists_isDissected (h : attr.EndsByForm constants) :
    ∃ found, IsDissected constants attr found := by
  obtain ⟨found, place, hread, hrest⟩ := h
  exact ⟨found, fun levels hlevels => reads_nested hread hrest hlevels⟩

/-- Attributes that are dissected by themselves are dissected in a list. -/
theorem reads_list_of_isDissected {found : List Attribute}
    (h : List.Forall₂ (IsDissected constants) attrs found) (hlength : attrs.length < 0x10000) :
    Reads (list constants) (Bytes.ofList WrittenAttribute.written attrs) found := by
  intro position rest
  have hlevels : ∀ attr ∈ attrs, attr.written.length ≤
      (Bytes.ofList WrittenAttribute.written attrs ++ rest).length := by
    intro attr hmem
    obtain ⟨before, behind, rfl⟩ := List.append_of_mem hmem
    simp only [Bytes.ofList, List.flatMap_append, List.flatMap_cons, List.length_append]
    omega
  have hread : List.Forall₂ (fun (attr : WrittenAttribute) found =>
      Reads (nested constants (Bytes.ofList WrittenAttribute.written attrs ++ rest).length)
        attr.written found) attrs found :=
    ((List.forall₂_and_left _ _).mpr ⟨hlevels, h⟩).imp fun attr found hattr => hattr.2 _ hattr.1
  exact Reads.counted16 hread hlength position rest

/-- **What is found in an attribute is told by its name**: the instructions, if it is a method
body. -/
theorem exists_name_of_isDissected (hfits : attr.Fits) (h : IsDissected constants attr found) :
    ∃ name, Attribute.name constants attr.name = .ok name ∧
      ((name = "Code" ∧ ∃ code, found = .code code ∧ HasInstructions attr.body code) ∨
        name ≠ "Code" ∧ found = .other) := by
  have hlength : attr.written.length ≤ attr.body.length + 6 := by
    simp [WrittenAttribute.written, Bytes.ofWord, Bytes.length_bigEndian]
    omega
  have hread := h (attr.body.length + 5 + 1) hlength 0 []
  rw [WrittenAttribute.written, List.append_assoc, List.append_assoc] at hread
  obtain ⟨index, place₁, hindex, h₁⟩ := exists_of_bind hread
  obtain ⟨rfl, hrest₁⟩ := (reads_u16 attr.name).eq_of_rest_eq rfl hindex
  obtain ⟨name, hname, h₂⟩ := exists_of_lift_bind h₁
  obtain ⟨length, place₂, hcount, h₃⟩ := exists_of_bind h₂
  obtain ⟨rfl, hrest₂⟩ := (reads_u32 hfits).eq_of_rest_eq hrest₁ hcount
  rw [List.append_nil] at hrest₂
  refine ⟨name, hname, ?_⟩
  by_cases hcode : name = "Code"
  · rw [if_pos hcode] at h₃
    obtain ⟨_, place₃, hwords, h₄⟩ := exists_of_bind h₃
    obtain ⟨count, place₄, hcount, h₅⟩ := exists_of_bind h₄
    obtain ⟨code, place₅, hblock, h₆⟩ := exists_of_bind h₅
    obtain ⟨_, _, _, h₇⟩ := exists_of_bind h₆
    obtain ⟨_, _, _, h₈⟩ := exists_of_bind h₇
    obtain ⟨words, hrest₃, hlength'⟩ := takes_words 2 _ _ _ _ hwords
    obtain ⟨hlt, hrest₄⟩ := eq_append_of_u32 hcount
    obtain ⟨hrest₅, rfl⟩ := eq_append_of_block hblock
    refine Or.inl ⟨hcode, code, (Prod.mk.inj (Except.ok.inj h₈)).1.symm, hlt, words, place₅.rest,
      hlength', ?_⟩
    rw [← hrest₂, hrest₃, hrest₄, hrest₅]
  · rw [if_neg hcode] at h₃
    refine Or.inr ⟨hcode, ?_⟩
    by_cases hrecord : name = "Record"
    · rw [if_pos hrecord] at h₃
      obtain ⟨_, _, _, h₄⟩ := exists_of_bind h₃
      exact (Prod.mk.inj (Except.ok.inj h₄)).1.symm
    · rw [if_neg hrecord] at h₃
      cases hform : form? name attr.body.length with
      | none =>
        rw [hform] at h₃
        cases h₃
      | some form =>
        rw [hform] at h₃
        obtain ⟨_, _, _, h₄⟩ := exists_of_bind h₃
        exact (Prod.mk.inj (Except.ok.inj h₄)).1.symm

/-- **What skimming makes of an attribute that is dissected**: the call sites in its instructions,
if it is a method body. -/
theorem mapM_code?_eq_ok (hpool : pool.KeepsAll constants) (hfits : attr.Fits)
    (h : IsDissected constants attr found) {step : Step} {sites : Option (List CallSite)}
    (hlook : attr.look pool step = .ok sites) :
    found.code?.mapM (callSites pool.method) = .ok sites := by
  obtain ⟨name, hname, hfound⟩ := exists_name_of_isDissected hfits h
  have htext := ConstantPool.text_eq_ok_iff_isText.mpr (hpool.isText_of_name hname)
  rw [WrittenAttribute.look, htext] at hlook
  change callsInAttribute pool step (name, attr.body) = .ok sites at hlook
  rcases hfound with ⟨rfl, code, rfl, hcode⟩ | ⟨hother, rfl⟩
  · rw [callsInAttribute, if_pos rfl, Outcome.during_eq_ok_iff,
      within_instructions_eq_ok_iff.mpr hcode] at hlook
    rw [code?, Option.mapM_some]
    exact hlook
  · rw [callsInAttribute, if_neg hother] at hlook
    rw [code?, Option.mapM_none]
    exact hlook

/-- Only an attribute of this name is a method body. -/
theorem isText_of_code?_eq_some (hpool : pool.KeepsAll constants) (hfits : attr.Fits)
    (h : IsDissected constants attr found) {code : Bytes} (hcode : found.code? = some code) :
    pool.IsText attr.name "Code" := by
  obtain ⟨name, hname, ⟨rfl, -⟩ | ⟨-, rfl⟩⟩ := exists_name_of_isDissected hfits h
  · exact hpool.isText_of_name hname
  · cases hcode

/-! ## One body -/

/-- **The first body and the last one are the same**, if there is at most one. -/
theorem lastCalls_of_pairwise {method : UInt16 → Outcome (String × String × String)}
    {founds : List Attribute} {looked : List (Option (List CallSite))}
    (h : List.Forall₂ (fun (found : Attribute) sites =>
      found.code?.mapM (callSites method) = .ok sites) founds looked)
    (hone : founds.Pairwise fun found found' => found.code? = none ∨ found'.code? = none)
    (calls : List CallSite) :
    match founds.findSome? code? with
    | none => lastCalls calls looked = calls
    | some body => callSites method body = .ok (lastCalls calls looked) := by
  induction h generalizing calls with
  | nil => rfl
  | @cons found sites founds looked hfound _ ih =>
    obtain ⟨hfirst, hone⟩ := List.pairwise_cons.mp hone
    rw [List.findSome?_cons]
    cases hcode : found.code? with
    | none =>
      rw [hcode, Option.mapM_none] at hfound
      obtain rfl := Except.ok.inj hfound
      exact ih hone calls
    | some body =>
      rw [hcode, Option.mapM_some] at hfound
      obtain ⟨sites, hsites, hsome⟩ := bind_eq_ok_iff.mp hfound
      obtain rfl := Except.ok.inj hsome
      have hnone : founds.findSome? code? = none := by
        rw [List.findSome?_eq_none_iff]
        intro found' hmem
        exact (hfirst found' hmem).resolve_left (by rw [hcode]; exact Option.some_ne_none body)
      have hrest := ih hone sites
      rw [hnone] at hrest
      show callSites method body = .ok (lastCalls sites looked)
      rw [hrest, hsites]

/-- Whether at most one of the attributes is a body. -/
def HasOneBody (pool : ConstantPool) (attrs : List WrittenAttribute) : Prop :=
  attrs.Pairwise fun attr attr' => ¬ (pool.IsText attr.name "Code" ∧ pool.IsText attr'.name "Code")

instance (pool : ConstantPool) (attrs : List WrittenAttribute) :
    Decidable (HasOneBody pool attrs) :=
  inferInstanceAs (Decidable (attrs.Pairwise _))

/-- The same of attributes that are both dissected and skimmed. -/
theorem lastCalls_of_hasOneBody (hpool : pool.KeepsAll constants)
    (hfits : ∀ attr ∈ attrs, attr.Fits) {founds : List Attribute}
    (h : List.Forall₂ (IsDissected constants) attrs founds) (hone : HasOneBody pool attrs)
    {step : Step} {looked : List (Option (List CallSite))}
    (hlooked : attrs.mapM (WrittenAttribute.look pool step) = .ok looked) (calls : List CallSite) :
    match founds.findSome? code? with
    | none => lastCalls calls looked = calls
    | some body => callSites pool.method body = .ok (lastCalls calls looked) := by
  have hfound : List.Forall₂ (fun (attr : WrittenAttribute) found =>
      attr.Fits ∧ IsDissected constants attr found) attrs founds :=
    (List.forall₂_and_left _ _).mpr ⟨hfits, h⟩
  refine lastCalls_of_pairwise ?_ ?_ calls
  · refine forall₂_of_forall₂ (fun attr found sites hfound hlook => ?_) hfound
      (mapM_eq_ok_iff.mp hlooked)
    exact mapM_code?_eq_ok hpool hfound.1 hfound.2 hlook
  · refine pairwise_of_forall₂ (fun attr found attr' found' hfound hfound' hnot => ?_) hfound hone
    by_contra hsome
    obtain ⟨hcode, hcode'⟩ := not_or.mp hsome
    obtain ⟨body, hbody⟩ := Option.ne_none_iff_exists'.mp hcode
    obtain ⟨body', hbody'⟩ := Option.ne_none_iff_exists'.mp hcode'
    exact hnot ⟨isText_of_code?_eq_some hpool hfound.1 hfound.2 hbody,
      isText_of_code?_eq_some hpool hfound'.1 hfound'.2 hbody'⟩

end Attribute

/-! ## Members -/

namespace WrittenMember

variable {document : Document} {pool : ConstantPool} {member : WrittenMember}
  {found : MemberDocument}

/-- What dissecting makes of a field or method, of attributes that are dissected by themselves. -/
def IsDissected (constants : Array Constant) (member : WrittenMember) (found : MemberDocument) :
    Prop :=
  ∃ attrs, List.Forall₂ (Attribute.IsDissected constants) member.attributes attrs ∧
    found = ⟨member.name, member.descriptor, attrs.findSome? Attribute.code?⟩

theorem exists_isDissected {constants : Array Constant}
    (h : ∀ attr ∈ member.attributes, attr.EndsByForm constants) :
    ∃ found, member.IsDissected constants found := by
  obtain ⟨attrs, hattrs⟩ := exists_forall₂ fun attr hmem =>
    Attribute.exists_isDissected (h attr hmem)
  exact ⟨_, attrs, hattrs, rfl⟩

theorem IsDissected.reads {constants : Array Constant} (h : member.IsDissected constants found)
    (hfits : member.Fits) : Reads (Document.member constants) member.written found := by
  obtain ⟨attrs, hattrs, rfl⟩ := h
  exact Document.reads_member_of_reads_list
    (Attribute.reads_list_of_isDissected hattrs hfits.length)

/-- **A method with one body makes the same calls, dissected or skimmed.** -/
theorem IsDissected.eq_of_methodCalls (h : member.IsDissected document.pool found)
    (hpool : pool.KeepsAll document.pool) (hfits : member.Fits)
    (hone : Attribute.HasOneBody pool member.attributes)
    {made made' : MethodCalls} (hmade : document.methodCalls found = .ok made)
    (hmade' : member.resolveCalls pool = .ok made') : made = made' := by
  obtain ⟨attrs, hattrs, rfl⟩ := h
  obtain ⟨name, hname, hbehind⟩ := bind_eq_ok_iff.mp hmade
  obtain ⟨descriptor, hdescriptor, hcalls⟩ := bind_eq_ok_iff.mp hbehind
  obtain ⟨name', hname', hbehind'⟩ := bind_eq_ok_iff.mp hmade'
  obtain ⟨descriptor', hdescriptor', hbehind''⟩ := bind_eq_ok_iff.mp hbehind'
  obtain ⟨looked, hlooked, hvalue'⟩ := bind_eq_ok_iff.mp hbehind''
  obtain rfl := Except.ok.inj hvalue'
  rw [Outcome.during_eq_ok_iff] at hname hname' hdescriptor hdescriptor'
  have hnamed : name = name' := Except.ok.inj <|
    (ConstantPool.text_eq_ok_iff_isText.mpr (hpool.isText_of_textAt hname)).symm.trans hname'
  have hdescribed : descriptor = descriptor' := Except.ok.inj <|
    (ConstantPool.text_eq_ok_iff_isText.mpr (hpool.isText_of_textAt hdescriptor)).symm.trans
      hdescriptor'
  subst hnamed hdescribed
  have hlast := Attribute.lastCalls_of_hasOneBody hpool hfits.attributes hattrs hone hlooked []
  cases hbody : attrs.findSome? Attribute.code? with
  | none =>
    rw [hbody] at hcalls hlast
    obtain rfl := Except.ok.inj hcalls
    show MethodCalls.mk name descriptor [] = _
    rw [hlast]
  | some body =>
    rw [hbody] at hcalls hlast
    obtain ⟨sites, hsites, hvalue⟩ := bind_eq_ok_iff.mp hcalls
    obtain rfl := Except.ok.inj hvalue
    rw [Outcome.during_eq_ok_iff] at hsites
    have hsites' := hpool.callSites_eq_ok hsites
    rw [Except.ok.inj (hsites'.symm.trans hlast)]

end WrittenMember

/-! ## Files -/

/-- Whether the attributes of the fields and methods in a file end where their forms do, and no
method has more than one body. -/
structure Layout.IsFaithful {bytes : Bytes} (layout : Layout bytes) (constants : Array Constant) :
    Prop where
  fields : ∀ field ∈ layout.fields, ∀ attr ∈ field.attributes, attr.EndsByForm constants
  methods : ∀ method ∈ layout.methods, ∀ attr ∈ method.attributes, attr.EndsByForm constants
  oneBody : ∀ method ∈ layout.methods, Attribute.HasOneBody layout.header.pool method.attributes

variable {bytes : Bytes} {document : Document}

/-- The parts of a file that is dissected. -/
theorem Document.exists_of_read (h : Document.read bytes = .ok document) :
    ∃ place place' place'' fields,
      Document.header (Place.start bytes) = .ok ((document.pool, document.thisClass), place) ∧
      counted16 (Document.member document.pool) place = .ok (fields, place') ∧
      counted16 (Document.member document.pool) place' = .ok (document.methods, place'') := by
  obtain ⟨⟨found, last⟩, hread, hfound⟩ := bind_eq_ok_iff.mp h
  obtain rfl : found = document := by
    dsimp only at hfound
    split at hfound
    · exact Except.ok.inj hfound
    · cases hfound
  obtain ⟨⟨constants, this⟩, place, hheader, h₁⟩ := exists_of_bind hread
  obtain ⟨fields, place', hfields, h₂⟩ := exists_of_bind h₁
  obtain ⟨methods, place'', hmethods, h₃⟩ := exists_of_bind h₂
  obtain ⟨_, _, _, h₄⟩ := exists_of_bind h₃
  obtain rfl := (Prod.mk.inj (Except.ok.inj h₄)).1
  exact ⟨place, place', place'', fields, hheader, hfields, hmethods⟩

/-- Fields or methods are dissected one by one. -/
theorem reads_members_of_isDissected {constants : Array Constant} {members : List WrittenMember}
    {found : List MemberDocument} (hlength : members.length < 0x10000)
    (hfits : ∀ member ∈ members, member.Fits)
    (h : List.Forall₂ (WrittenMember.IsDissected constants) members found) :
    Reads (counted16 (Document.member constants)) (Bytes.ofList WrittenMember.written members)
      found :=
  Reads.counted16 (((List.forall₂_and_left _ _).mpr ⟨hfits, h⟩).imp fun _ _ hmember =>
    hmember.2.reads hmember.1) hlength

/-- The pools of a file that is skimmed and dissected, and what both make of its methods. -/
theorem Layout.IsFaithful.exists_of_read {layout : Layout bytes}
    (h : layout.IsFaithful document.pool) (hread : Document.read bytes = .ok document) :
    layout.header.pool.KeepsAll document.pool ∧
      layout.header.pool.className document.thisClass = .ok layout.header.name ∧
      List.Forall₂ (WrittenMember.IsDissected document.pool) layout.methods document.methods := by
  obtain ⟨place, place', place'', fields, hheader, hfields, hmethods⟩ :=
    Document.exists_of_read hread
  obtain ⟨fields', hfields'⟩ := exists_forall₂ fun field hmem =>
    WrittenMember.exists_isDissected (h.fields field hmem)
  obtain ⟨methods', hmethods'⟩ := exists_forall₂ fun method hmem =>
    WrittenMember.exists_isDissected (h.methods method hmem)
  rw [layout.eq_append] at hheader
  obtain ⟨⟨hpool, hname⟩, hplace⟩ := alike_header _ _ _ _ _ _ (layout.reads_header _) hheader
  obtain ⟨-, hplace'⟩ := (reads_members_of_isDissected layout.fields_length layout.fits_fields
    hfields').eq_of_rest_eq hplace hfields
  obtain ⟨rfl, -⟩ := (reads_members_of_isDissected layout.methods_length layout.fits_methods
    hmethods').eq_of_rest_eq hplace' hmethods
  exact ⟨hpool, hname, hmethods'⟩

/-- **In a faithful file, dissecting and skimming find the same calls.** -/
theorem calls_eq_of_isFaithful {made calls : ClassCalls}
    (hread : Document.read bytes = .ok document) (hmade : document.classCalls = .ok made)
    (hskim : ClassCalls.skim bytes = .ok calls) :
    Nonempty (Layout bytes) ∧
      ∀ layout : Layout bytes, layout.IsFaithful document.pool → made = calls := by
  refine ⟨Layout.exists_of_skim hskim, fun layout hfaithful => ?_⟩
  obtain ⟨hpool, hthis, hdissected⟩ := hfaithful.exists_of_read hread
  obtain ⟨hname, hskimmed⟩ := layout.resolveCalls_eq_ok hskim
  obtain ⟨name, hclass, hbehind⟩ := bind_eq_ok_iff.mp hmade
  obtain ⟨methods, hcalls, hvalue⟩ := bind_eq_ok_iff.mp hbehind
  obtain rfl := Except.ok.inj hvalue
  have hclass' := ConstantPool.className_eq_ok_iff_isClass.mpr <|
    hpool.isClass_of_classNameAt (Outcome.during_eq_ok_iff.mp hclass)
  have hmethods : List.Forall₂ Eq methods calls.methods := by
    have hagree : List.Forall₂ (fun found made' => ∀ made, document.methodCalls found = .ok made →
        made = made') document.methods calls.methods := by
      refine forall₂_of_forall₂ (fun method found made' hfound hmade' made hmade => ?_)
        ((List.forall₂_and_left _ _).mpr ⟨hfaithful.oneBody,
          (List.forall₂_and_left _ _).mpr ⟨layout.fits_methods, hdissected⟩⟩)
        (mapM_eq_ok_iff.mp hskimmed)
      obtain ⟨hone, hfits, hfound⟩ := hfound
      exact hfound.eq_of_methodCalls hpool hfits hone hmade hmade'
    exact forall₂_of_forall₂ (fun found made made' hmade hagree => hagree made hmade)
      (mapM_eq_ok_iff.mp hcalls) hagree
  rw [List.forall₂_eq_eq_eq] at hmethods
  obtain ⟨name', methods'⟩ := calls
  obtain rfl : name = name' := Except.ok.inj <|
    hclass'.symm.trans (hthis.trans (congrArg Except.ok hname.symm))
  exact congrArg (ClassCalls.mk name) hmethods

/-- A class with a constant field, and with a deprecated method that calls itself and tells the
line of the call. -/
def callsItself : WrittenClass where
  minor := 0
  major := 52
  constants := [.utf8 "A", .classInfo 1, .utf8 "Code", .nameAndType 1 1, .methodRef 2 4,
    .utf8 "Deprecated", .utf8 "LineNumberTable", .utf8 "ConstantValue", .integer 0]
  access := 0x0021
  this := 2
  super := 0
  interfaces := []
  fields := [⟨0x0018, 1, 1, [⟨8, [0x00, 0x09]⟩]⟩]
  methods := [⟨0x0001, 1, 1, [⟨6, []⟩,
    ⟨3, [0x00, 0x00, 0x00, 0x01, 0x00, 0x00, 0x00, 0x04, 0xb8, 0x00, 0x05, 0xb1, 0x00, 0x00, 0x00,
      0x01, 0x00, 0x07, 0x00, 0x00, 0x00, 0x06, 0x00, 0x01, 0x00, 0x00, 0x00, 0x01]⟩]⟩]
  attributes := []

/-- What dissecting makes of it. -/
def callsItselfDocument : Document where
  pool := (ConstantPool.entries callsItself.constants).toArray
  thisClass := 2
  methods := [⟨1, 1, some [0xb8, 0x00, 0x05, 0xb1]⟩]

/-- The call that it makes. -/
def callsItselfMade : ClassCalls := ⟨"A", [⟨"A", "A", [⟨0, .static, "A", "A", "A"⟩]⟩]⟩

/-- The file is laid out as it was written. -/
def callsItselfLayout : Layout callsItself.written where
  header := ⟨ConstantPool.ofConstants callsItself.constants, 0x0021, "A", none, []⟩
  fields := callsItself.fields
  methods := callsItself.methods
  front := callsItself.writtenHeader
  rest := Bytes.ofList WrittenClassAttribute.written []
  reads_header := reads_header (by decide) ⟨1, rfl, rfl⟩ (iff_of_true rfl rfl) (by simp) .nil
  eq_append := rfl
  fits_fields := by decide
  fields_length := by decide
  fits_methods := by decide
  methods_length := by decide

/-- Its attributes end where their forms do, also the one that nests in the body. -/
theorem calls_eq_of_isFaithful_callsItself :
    Document.read callsItself.written = .ok callsItselfDocument ∧
      callsItselfDocument.classCalls = .ok callsItselfMade ∧
      callsItselfLayout.IsFaithful callsItselfDocument.pool ∧
      ∃ calls, ClassCalls.skim callsItself.written = .ok calls ∧ callsItselfMade = calls := by
  have hread : Document.read callsItself.written = .ok callsItselfDocument := by decide +kernel
  have hmade : callsItselfDocument.classCalls = .ok callsItselfMade := by decide +kernel
  have hskim : ClassCalls.skim callsItself.written = .ok callsItselfMade := by decide +kernel
  have hfaithful : callsItselfLayout.IsFaithful callsItselfDocument.pool :=
    ⟨by decide +kernel, by decide +kernel, by decide +kernel⟩
  obtain ⟨-, hcalls⟩ := calls_eq_of_isFaithful hread hmade hskim
  exact ⟨hread, hmade, hfaithful, _, hskim, hcalls callsItselfLayout hfaithful⟩

/-! ## Other files -/

/-- Whether dissecting and skimming find different calls in bytes. -/
def FindsOtherCalls (bytes : Bytes) : Prop :=
  ∃ document made calls, Document.read bytes = .ok document ∧ document.classCalls = .ok made ∧
    ClassCalls.skim bytes = .ok calls ∧ made ≠ calls

/-- A body that makes the call. -/
def callingBody : WrittenAttribute := ⟨3, WrittenCode.written ⟨0, 1, [0xb8, 0x00, 0x05, 0xb1], []⟩⟩

/-- A body that makes none. -/
def returningBody : WrittenAttribute := ⟨3, WrittenCode.written ⟨0, 1, [0xb1], []⟩⟩

/-- The method has both bodies. -/
def twoBodies : Bytes :=
  WrittenClass.written { callsItself with
    methods := [⟨0x0001, 1, 1, [callingBody, returningBody]⟩] }

/-- The first attribute of the method is empty by its form, but not by its length.  To whom goes by
the form, its bytes are the second attribute, and then the count of the attributes of the class; and
the last attribute is of the class. -/
def overlongAttribute : Bytes :=
  callsItself.writtenHeader ++ (Bytes.ofList WrittenMember.written callsItself.fields ++
    Bytes.ofList WrittenMember.written
      [⟨0x0001, 1, 1, [⟨6, callingBody.written ++ [0x00, 0x01]⟩, returningBody]⟩])

/-- **In other files, dissecting and skimming need not find the same calls.** -/
theorem findsOtherCalls_of_unfaithful :
    FindsOtherCalls twoBodies ∧ FindsOtherCalls overlongAttribute := by
  have hmade : callsItselfDocument.classCalls = .ok callsItselfMade := by decide +kernel
  have hne : callsItselfMade ≠ ⟨"A", [⟨"A", "A", []⟩]⟩ := by decide
  exact ⟨⟨_, _, _, by decide +kernel, hmade, by decide +kernel, hne⟩,
    _, _, _, by decide +kernel, hmade, by decide +kernel, hne⟩

end AccessTransformer.ClassFile
