import AccessTransformer.ClassFile.Calls
import AccessTransformer.Proofs.ClassFile.Body
import AccessTransformer.Proofs.ClassFile.Declares

/-!
# What calls a class file makes

A class file that has no attributes but method bodies, written like any other class file.  The calls
that it makes are told by its indices and by the instructions of its bodies: method by method the
call instructions in their order, each with the method that its index stands for.

* `WrittenCode`: method bodies as values.
* `WrittenClass.IsPlain`: class files with no attributes but method bodies.
* `WrittenClass.Makes`: whether a class file makes calls.
* `WrittenClass.IsPlain.exists_makes`: it makes some.
* `callSites_eq_ok`: what is found in a body are its calls, in whatever way methods are resolved.
-/

namespace AccessTransformer.ClassFile

open ConstantPool Instruction

/-! ## Method bodies -/

/-- A row of an exception table. -/
structure WrittenHandler where
  start : UInt16
  stop : UInt16
  target : UInt16
  caught : UInt16
  deriving DecidableEq, Repr

/-- The bytes of a row of an exception table. -/
def WrittenHandler.written (handler : WrittenHandler) : Bytes :=
  [handler.start, handler.stop, handler.target, handler.caught].flatMap Bytes.ofWord

/-- A method body: its limits, its instructions and its exception table.  No attributes nest in
it. -/
structure WrittenCode where
  maxStack : UInt16
  maxLocals : UInt16
  instructions : Bytes
  handlers : List WrittenHandler
  deriving DecidableEq, Repr

/-- The bytes of a method body. -/
def WrittenCode.written (code : WrittenCode) : Bytes :=
  [code.maxStack, code.maxLocals].flatMap Bytes.ofWord ++
    (Bytes.bigEndian 4 code.instructions.length ++ (code.instructions ++
      (Bytes.ofList WrittenHandler.written code.handlers ++
        Bytes.ofList WrittenAttribute.written [])))

theorem WrittenCode.length_instructions_le (code : WrittenCode) :
    code.instructions.length ≤ code.written.length := by
  simp only [written, List.length_append]
  omega

/-- Whether an attribute is a method body. -/
structure WrittenAttribute.IsCode (constants : List Constant) (attr : WrittenAttribute)
    (code : WrittenCode) : Prop where
  name : HasText constants attr.name "Code"
  body : attr.body = code.written
  handlers : code.handlers.length < 0x10000

/-- Whether instructions are complete, and the methods that they call can be told. -/
def Resolvable (constants : List Constant) (body : Bytes) : Prop :=
  ∃ instructions, Decomposes body instructions ∧
    ∀ calls, ListsCalls 0 instructions calls →
      ∀ call ∈ calls, ∃ owner name descriptor,
        HasMethod constants call.method owner name descriptor

/-- Whether a class file has no attributes but one body at most for each method, and what it says
can be told. -/
structure WrittenClass.IsPlain (file : WrittenClass) : Prop where
  fits : file.Fits
  resolves : file.Resolves
  fields : ∀ field ∈ file.fields, field.attributes = []
  methods : ∀ method ∈ file.methods, method.attributes = [] ∨
    ∃ attr code, method.attributes = [attr] ∧ attr.IsCode file.constants code ∧
      Resolvable file.constants code.instructions
  attributes : file.attributes = []

/-! ## Calls -/

/-- Whether a call site is the call, with the method that the index of the call stands for. -/
structure IsSite (constants : List Constant) (call : Invocation) (site : CallSite) : Prop where
  offset : site.offset = call.offset
  kind : site.kind = call.kind
  method : HasMethod constants call.method site.owner site.name site.descriptor

/-- Whether the call instructions of a body are the call sites, in their order. -/
def MakesCalls (constants : List Constant) (body : Bytes) (sites : List CallSite) : Prop :=
  ∃ instructions calls, Decomposes body instructions ∧ ListsCalls 0 instructions calls ∧
    List.Forall₂ (IsSite constants) calls sites

/-- Whether the call sites are those of a method with the given attributes: those of its body, or
none if it has no body. -/
inductive BodyMakes (constants : List Constant) : List WrittenAttribute → List CallSite → Prop where
  | none : BodyMakes constants [] []
  | code {attr : WrittenAttribute} {code : WrittenCode} {sites : List CallSite}
      (hcode : attr.IsCode constants code) (h : MakesCalls constants code.instructions sites) :
      BodyMakes constants [attr] sites

/-- Whether a method makes the calls. -/
structure WrittenMember.Makes (constants : List Constant) (method : WrittenMember)
    (made : MethodCalls) : Prop where
  name : HasText constants method.name made.name
  descriptor : HasText constants method.descriptor made.descriptor
  calls : BodyMakes constants method.attributes made.calls

/-- Whether a class file makes the calls: it has the name, and its methods make the calls in their
order. -/
structure WrittenClass.Makes (file : WrittenClass) (made : ClassCalls) : Prop where
  name : HasClass file.constants file.this made.name
  methods : List.Forall₂ (WrittenMember.Makes file.constants) file.methods made.methods

/-! ## Some calls -/

variable {constants : List Constant}

/-- The calls of a body are found by stepping over it. -/
theorem makesCalls_iff {body : Bytes} {sites : List CallSite}
    (hlength : body.length < 0x100000000) :
    MakesCalls constants body sites ↔
      ∃ calls, invocations body = .ok calls ∧ List.Forall₂ (IsSite constants) calls sites := by
  constructor
  · rintro ⟨instructions, calls, hbody, hcalls, hsites⟩
    exact ⟨calls, (invocations_eq_ok_iff hlength).mpr ⟨instructions, hbody, hcalls⟩, hsites⟩
  · rintro ⟨calls, hfound, hsites⟩
    obtain ⟨instructions, hbody, hcalls⟩ := (invocations_eq_ok_iff hlength).mp hfound
    exact ⟨instructions, calls, hbody, hcalls, hsites⟩

/-- Where a body makes calls, its instructions are complete and their methods can be told. -/
theorem MakesCalls.resolvable {body : Bytes} {sites : List CallSite}
    (h : MakesCalls constants body sites) (hlength : body.length < 0x100000000) :
    Resolvable constants body := by
  obtain ⟨instructions, calls, hbody, hcalls, hsites⟩ := h
  refine ⟨instructions, hbody, fun others hothers call hcall => ?_⟩
  have hfound := (invocations_eq_ok_iff hlength).mpr ⟨instructions, hbody, hcalls⟩
  have hfound' := (invocations_eq_ok_iff hlength).mpr ⟨instructions, hbody, hothers⟩
  obtain rfl := Except.ok.inj (hfound.symm.trans hfound')
  obtain ⟨site, -, hsite⟩ := exists_of_forall₂_of_mem hsites.flip hcall
  exact ⟨_, _, _, hsite.method⟩

theorem Resolvable.exists_makesCalls {body : Bytes} (h : Resolvable constants body)
    (hlength : body.length < 0x100000000) : ∃ sites, MakesCalls constants body sites := by
  obtain ⟨instructions, ⟨hbody, rfl⟩, hmethods⟩ := h
  obtain ⟨calls, hcalls⟩ := hbody.exists_listsCalls (by omega)
  obtain ⟨sites, hsites⟩ : ∃ sites, List.Forall₂ (IsSite constants) calls sites := by
    refine exists_forall₂ fun call hcall => ?_
    obtain ⟨owner, name, descriptor, hmethod⟩ := hmethods calls hcalls call hcall
    exact ⟨⟨call.offset, call.kind, owner, name, descriptor⟩, rfl, rfl, hmethod⟩
  exact ⟨sites, instructions, calls, ⟨hbody, rfl⟩, hcalls, hsites⟩

/-- **A class file with no attributes but method bodies makes some calls.** -/
theorem WrittenClass.IsPlain.exists_makes {file : WrittenClass} (h : file.IsPlain) :
    ∃ made, file.Makes made := by
  obtain ⟨name, hname⟩ := h.resolves.this
  obtain ⟨methods, hmethods⟩ : ∃ methods,
      List.Forall₂ (WrittenMember.Makes file.constants) file.methods methods := by
    refine exists_forall₂ fun method hmem => ?_
    obtain ⟨⟨name, hname⟩, descriptor, hdescriptor⟩ := h.resolves.methods method hmem
    rcases h.methods method hmem with hnone | ⟨attr, code, hattr, hcode, hresolvable⟩
    · exact ⟨⟨name, descriptor, []⟩, hname, hdescriptor, hnone ▸ .none⟩
    · have hfits : attr.Fits := by
        refine (h.fits.methods method hmem).attributes attr ?_
        rw [hattr]
        exact List.mem_singleton_self attr
      have hlength : code.instructions.length < 0x100000000 :=
        Nat.lt_of_le_of_lt code.length_instructions_le (hcode.body ▸ hfits)
      obtain ⟨sites, hsites⟩ := hresolvable.exists_makesCalls hlength
      exact ⟨⟨name, descriptor, sites⟩, hname, hdescriptor, hattr ▸ .code hcode hsites⟩
  exact ⟨⟨name, methods⟩, hname, hmethods⟩

/-! ## More constants -/

theorem WrittenAttribute.IsCode.append {attr : WrittenAttribute} {code : WrittenCode}
    (h : attr.IsCode constants code) (more : List Constant) :
    attr.IsCode (constants ++ more) code :=
  ⟨h.name.append more, h.body, h.handlers⟩

theorem MakesCalls.append {body : Bytes} {sites : List CallSite}
    (h : MakesCalls constants body sites) (more : List Constant) :
    MakesCalls (constants ++ more) body sites := by
  obtain ⟨instructions, calls, hbody, hcalls, hsites⟩ := h
  exact ⟨instructions, calls, hbody, hcalls, hsites.imp fun call site hsite =>
    ⟨hsite.offset, hsite.kind, hsite.method.append more⟩⟩

theorem BodyMakes.append {attrs : List WrittenAttribute} {sites : List CallSite}
    (h : BodyMakes constants attrs sites) (more : List Constant) :
    BodyMakes (constants ++ more) attrs sites := by
  cases h with
  | none => exact .none
  | code hcode hcalls => exact .code (hcode.append more) (hcalls.append more)

/-- **Constants behind the others change no calls.** -/
theorem WrittenMember.Makes.append {method : WrittenMember} {made : MethodCalls}
    (h : method.Makes constants made) (more : List Constant) :
    method.Makes (constants ++ more) made :=
  ⟨h.name.append more, h.descriptor.append more, h.calls.append more⟩

/-! ## Finding them -/

/-- **What is found in a body are its calls**, if every index is resolved to the method that it
stands for. -/
theorem callSites_eq_ok {method : UInt16 → Outcome (String × String × String)} {body : Bytes}
    {sites : List CallSite} (hlength : body.length < 0x100000000)
    (hmethod : ∀ index owner name descriptor, HasMethod constants index owner name descriptor →
      method index = .ok (owner, name, descriptor))
    (h : MakesCalls constants body sites) : callSites method body = .ok sites := by
  obtain ⟨calls, hfound, hsites⟩ := (makesCalls_iff hlength).mp h
  rw [callSites, hfound]
  refine mapM_eq_ok (hsites.imp fun call site hsite => ?_)
  obtain ⟨offset, kind, owner, name, descriptor⟩ := site
  obtain ⟨rfl, rfl, hresolved⟩ := hsite
  rw [hmethod call.method owner name descriptor hresolved]
  rfl

end AccessTransformer.ClassFile
