import AccessTransformer.Proofs.Rules.Spelling

/-!
# Unknown keys in rules files

Rules files and groups have no other fields than the declared ones, and reading ends with the first
key that belongs to none of them.  The fields of an explicit modifier are declared too, but there
a key that belongs to none of them is passed over: the modifier is read as if its member were not
there, so one that is misspelt gives the field its default.

An object that stands for one of them has a context, which is what lies around it in the text.  A
reader of the whole either ends in front of the object, or reads it by the reader for what it stands
for and goes on with what that gives (`ReadsPart`).  So an object that is read as another one can
take its place, and where reading the object fails, reading the whole does.

* `FileContext.readsPart`: this holds for every object in a rules file.
* `RulesFile.ofText_insert`: an unknown key makes no difference in an explicit modifier.
* `RulesFile.ofText_keys`: the keys of objects in a text that is read.
-/

namespace AccessTransformer

/-! ## Readers of parts -/

namespace Json

variable {α β γ : Type} {outer : Tree → Except Fault α} {middle : Tree → Except Fault β}
  {inner : Tree → Except Fault γ} {fill fill' : Tree → Tree}

/-- Whether a reader of a whole, given for each part, comes to the part with another reader, unless
it ends in front of any part. -/
inductive ReadsPart (outer : Tree → Except Fault α) (fill : Tree → Tree)
    (inner : Tree → Except Fault β) : Prop
  | ends (fault : Fault) (h : ∀ part, outer (fill part) = .error fault)
  | reaches (rest : β → Except Fault α) (h : ∀ part, outer (fill part) = inner part >>= rest)

namespace ReadsPart

theorem refl (outer : Tree → Except Fault α) : ReadsPart outer id outer :=
  .reaches pure fun part => (bind_pure (outer part)).symm

theorem trans (h : ReadsPart outer fill middle) (h' : ReadsPart middle fill' inner) :
    ReadsPart outer (fill ∘ fill') inner := by
  cases h with
  | ends fault h => exact .ends fault fun part => h (fill' part)
  | reaches rest h =>
    cases h' with
    | ends fault h' =>
      refine .ends fault fun part => ?_
      rw [Function.comp_apply, h, h']
      rfl
    | reaches rest' h' =>
      refine .reaches (fun c => rest' c >>= rest) fun part => ?_
      rw [Function.comp_apply, h, h', bind_assoc]

/-- Parts that are read alike can take each other's place. -/
theorem congr (h : ReadsPart outer fill inner) {part part' : Tree}
    (heq : inner part = inner part') : outer (fill part) = outer (fill part') := by
  cases h with
  | ends fault h => rw [h, h]
  | reaches rest h => rw [h, h, heq]

/-- In a whole that is read the part is read. -/
theorem exists_of_eq_ok (h : ReadsPart outer fill inner) {part : Tree} {a : α}
    (hread : outer (fill part) = .ok a) : ∃ c, inner part = .ok c := by
  cases h with
  | ends fault h => exact nomatch (h part).symm.trans hread
  | reaches rest h =>
    obtain ⟨c, hc, -⟩ := bind_eq_ok_iff.mp ((h part).symm.trans hread)
    exact ⟨c, hc⟩

/-- In the place of a part of what is read, the problem of another part is that of the whole. -/
theorem eq_error (h : ReadsPart outer fill inner) {part part' : Tree} {a : α} {fault : Fault}
    (hread : outer (fill part) = .ok a) (herror : inner part' = .error fault) :
    outer (fill part') = .error fault := by
  cases h with
  | ends fault h => exact nomatch (h part).symm.trans hread
  | reaches rest h =>
    rw [h, herror]
    rfl

/-- A part is read behind what stands in front of it. -/
theorem of_bind {σ : Type} (front : Except Fault σ) (rest : σ → γ → Except Fault α)
    (h : ∀ part, outer (fill part) = do rest (← front) (← inner part)) :
    ReadsPart outer fill inner := by
  cases front with
  | error fault => exact .ends fault h
  | ok s => exact .reaches (rest s) h

/-- A list is read item by item. -/
theorem list (read : Tree → Except Fault α) (front back : List Tree) (closing : Tail) :
    ReadsPart (Tree.list read) (fun part => .array (front ++ part :: back) closing) read := by
  refine of_bind (front.mapM read) (fun as a => do
    let bs ← back.mapM read
    closing.check
    return as ++ a :: bs) fun part => ?_
  rw [Tree.list, List.mapM_append, List.mapM_cons]
  simp only [bind_assoc, pure_bind]

end ReadsPart

end Json

namespace Rules

open Json (Tree Tail Value ReadsPart)

/-! ## Objects in rules files -/

/-- What an object in a rules file can stand for. -/
inductive Role where
  | file
  | group
  | modifier
  deriving DecidableEq

/-- The keys of the declared fields. -/
def Role.keys : Role → List String
  | .file => ["groups"]
  | .group => ["name", "modifier", "kind", "classes", "methods", "fields"]
  | .modifier => ["name", "requires_final", "acceptable_flags"]

/-- What is read of an object. -/
def Role.Entry : Role → Type
  | .file => RulesFile
  | .group => GroupEntry
  | .modifier => ModifierEntry

/-- How an object is read. -/
def Role.read : (role : Role) → Tree → Except Json.Fault role.Entry
  | .file => RulesFile.ofTree
  | .group => GroupEntry.ofTree
  | .modifier => ModifierEntry.ofTree

/-- What lies around an object in a group. -/
inductive GroupContext : Role → Type where
  /-- Nothing, as it is the group. -/
  | whole : GroupContext .group
  /-- A group that is an object. -/
  | member (before after : List (String × Tree)) (tail : Tail) : GroupContext .modifier
  /-- A group that is an array of its fields. -/
  | item (name : Tree) (items : List Tree) (tail : Tail) : GroupContext .modifier

/-- The group with an object in a context. -/
def GroupContext.fill {role : Role} : GroupContext role → Tree → Tree
  | .whole, part => part
  | .member before after tail, part => .object (before ++ ("modifier", part) :: after) tail
  | .item name items tail, part => .array (name :: part :: items) tail

/-- What lies around an object in a rules file. -/
inductive FileContext : Role → Type where
  /-- Nothing, as it is the file. -/
  | whole : FileContext .file
  /-- A file that is an object, and in it the list with the group that the object belongs to. -/
  | member {role : Role} (context : GroupContext role) (front back : List Tree) (closing : Tail)
    (before after : List (String × Tree)) (tail : Tail) : FileContext role
  /-- A file that is an array of its only field, which is this list. -/
  | item {role : Role} (context : GroupContext role) (front back : List Tree) (closing : Tail)
    (items : List Tree) (tail : Tail) : FileContext role

/-- The rules file with an object in a context. -/
def FileContext.fill {role : Role} : FileContext role → Tree → Tree
  | .whole, part => part
  | .member context front back closing before after tail, part =>
    .object (before ++ ("groups", .array (front ++ context.fill part :: back) closing) :: after)
      tail
  | .item context front back closing items tail, part =>
    .array (.array (front ++ context.fill part :: back) closing :: items) tail

variable {role : Role} {before after : List (String × Tree)} {tail : Tail} {key : String}
  {value : Tree}

/-! ## Contexts in groups -/

namespace GroupEntry

/-- The members of an object are read one after the other. -/
theorem Draft.putAll_append (draft : Draft) (before after : List (String × Tree)) :
    draft.putAll (before ++ after) = (do (← draft.putAll before).putAll after) := by
  induction before generalizing draft with
  | nil => rfl
  | cons member before ih =>
    rw [List.cons_append, putAll, putAll, bind_assoc]
    simp only [ih]

/-- A field that may be given once is read unless it stands in front of it as well. -/
theorem readsPart_fresh {α β σ : Type} {outer : Tree → Except Json.Fault β} {fill : Tree → Tree}
    {read : Tree → Except Json.Fault α} (front : Except Json.Fault σ) (old : σ → Option α)
    (rest : σ → α → Except Json.Fault β)
    (h : ∀ part, outer (fill part) = do
      let draft ← front
      let a ← fresh (old draft) read part
      rest draft a) : ReadsPart outer fill read := by
  cases front with
  | error fault => exact .ends fault h
  | ok draft =>
    cases hold : old draft with
    | some a =>
      refine .ends .mismatched fun part => (h part).trans ?_
      show (fresh (old draft) read part >>= _) = _
      rw [hold]
      rfl
    | none =>
      refine .reaches (rest draft) fun part => (h part).trans ?_
      show (fresh (old draft) read part >>= _) = _
      rw [hold]
      rfl

/-- The modifier is put into the draft of what stands in front of it. -/
theorem readsPart_member (before after : List (String × Tree)) (tail : Tail) :
    ReadsPart ofTree (fun part => .object (before ++ ("modifier", part) :: after) tail)
      ModifierEntry.ofTree := by
  refine readsPart_fresh (({} : Draft).putAll before) Draft.modifier (fun draft modifier => do
    let draft ← ({ draft with modifier := some modifier } : Draft).putAll after
    tail.check
    draft.finish) fun part => ?_
  rw [ofTree, Draft.putAll_append, bind_assoc]
  simp only [Draft.putAll, Draft.put, if_neg (show "modifier" ≠ "name" by decide), if_true,
    bind_assoc, pure_bind]

/-- The modifier is read behind the name. -/
theorem readsPart_item (name : Tree) (items : List Tree) (tail : Tail) :
    ReadsPart ofTree (fun part => .array (name :: part :: items) tail) ModifierEntry.ofTree := by
  cases hname : name.string with
  | error fault =>
    refine .ends fault fun part => ?_
    rw [ofTree, ofItems, Tree.nextItem, hname]
    rfl
  | ok s =>
    -- what is done with the modifier is what `ofItems` does with it
    apply ReadsPart.reaches
    intro part
    rw [ofTree, ofItems, Tree.nextItem, hname]
    show ((do return (some (← ModifierEntry.ofTree part), items)) >>= _) = _
    rw [bind_assoc]

end GroupEntry

/-- An object in a group is read as what it stands for. -/
theorem GroupContext.readsPart (context : GroupContext role) :
    ReadsPart GroupEntry.ofTree context.fill role.read := by
  cases context with
  | whole => exact .refl _
  | member before after tail => exact GroupEntry.readsPart_member before after tail
  | item name items tail => exact GroupEntry.readsPart_item name items tail

/-! ## Contexts in files -/

namespace RulesFile

/-- The members of an object are read one after the other. -/
theorem groupsOf_append (groups : Option (List GroupEntry)) (before after : List (String × Tree)) :
    groupsOf groups (before ++ after) = (do groupsOf (← groupsOf groups before) after) := by
  induction before generalizing groups with
  | nil => rfl
  | cons member before ih =>
    rw [List.cons_append, groupsOf, groupsOf]
    split
    · rw [bind_assoc]
      simp only [ih]
    · rfl

/-- The list of groups is read behind what stands in front of it. -/
theorem readsPart_member (before after : List (String × Tree)) (tail : Tail) :
    ReadsPart ofTree (fun part => .object (before ++ ("groups", part) :: after) tail)
      (Tree.list GroupEntry.ofTree) := by
  refine GroupEntry.readsPart_fresh (groupsOf none before) id (fun _ groups => do
    let groups ← groupsOf (some groups) after
    tail.check
    return { groups := ← Tree.required groups }) fun part => ?_
  rw [ofTree, groupsOf_append, bind_assoc]
  simp only [groupsOf, if_true, bind_assoc, id]

/-- The list of groups is read first. -/
theorem readsPart_item (items : List Tree) (tail : Tail) :
    ReadsPart ofTree (fun part => .array (part :: items) tail) (Tree.list GroupEntry.ofTree) := by
  apply ReadsPart.reaches
  intro part
  rw [ofTree, Tree.nextItem, bind_assoc]

end RulesFile

/-- **An object in a rules file is read as what it stands for.** -/
theorem FileContext.readsPart (context : FileContext role) :
    ReadsPart RulesFile.ofTree context.fill role.read := by
  cases context with
  | whole => exact .refl _
  | member context front back closing before after tail =>
    exact (RulesFile.readsPart_member before after tail).trans
      ((ReadsPart.list _ front back closing).trans context.readsPart)
  | item context front back closing items tail =>
    exact (RulesFile.readsPart_item items tail).trans
      ((ReadsPart.list _ front back closing).trans context.readsPart)

/-! ## Unknown keys in explicit modifiers -/

theorem checkMembers_insert (h : value.check = .ok ()) :
    Tree.checkMembers (before ++ (key, value) :: after) = Tree.checkMembers (before ++ after) := by
  induction before with
  | nil =>
    rw [List.nil_append, Tree.checkMembers, h]
    rfl
  | cons member before ih =>
    rw [List.cons_append, List.cons_append, Tree.checkMembers, Tree.checkMembers, ih]

namespace ModifierEntry

theorem valuesOf_insert {name : String} (h : key ≠ name) :
    valuesOf name (before ++ (key, value) :: after) = valuesOf name (before ++ after) := by
  simp [valuesOf, List.filter_append, h]

/-- **An unknown key in the object of an explicit modifier makes no difference.** -/
theorem ofTree_insert (hkey : key ∉ Role.modifier.keys) (hvalue : value.check = .ok ()) :
    ofTree (.object (before ++ (key, value) :: after) tail)
      = ofTree (.object (before ++ after) tail) := by
  simp only [Role.keys, List.mem_cons, List.not_mem_nil, or_false, not_or] at hkey
  obtain ⟨hname, hfinal, hflags⟩ := hkey
  have hmembers : ofMembers (before ++ (key, value) :: after) = ofMembers (before ++ after) := by
    rw [ofMembers, ofMembers, valuesOf_insert hname, valuesOf_insert hfinal,
      valuesOf_insert hflags]
  simp only [ofTree, Tree.check, checkMembers_insert hvalue, hmembers]

end ModifierEntry

/-! ## Unknown keys in files and groups -/

theorem GroupEntry.Draft.put_eq_error (draft : Draft) (hkey : key ∉ Role.group.keys)
    (value : Tree) : draft.put key value = .error .mismatched := by
  simp only [Role.keys, List.mem_cons, List.not_mem_nil, or_false, not_or] at hkey
  obtain ⟨hname, hmodifier, hkind, hclasses, hmethods, hfields⟩ := hkey
  rw [put, if_neg hname, if_neg hmodifier, if_neg hkind, if_neg hclasses, if_neg hmethods,
    if_neg hfields]

theorem RulesFile.groupsOf_cons_eq_error (groups : Option (List GroupEntry))
    (hkey : key ∉ Role.file.keys) (value : Tree) (after : List (String × Tree)) :
    groupsOf groups ((key, value) :: after) = .error .mismatched := by
  have hgroups : key ≠ "groups" := fun heq => hkey (List.mem_singleton.mpr heq)
  rw [groupsOf, if_neg hgroups]

/-- Whether reading an object ends with a key or in front of it, if these members are in front. -/
def EndsAtKey {α : Type} (read : Tree → Except Json.Fault α) (before : List (String × Tree))
    (key : String) : Prop :=
  ∃ fault, (∀ value after tail,
      read (.object (before ++ (key, value) :: after) tail) = .error fault) ∧
    ∀ after tail a, read (.object (before ++ after) tail) = .ok a → fault = .mismatched

/-- What reads the members in front first ends at a key that it cannot read behind them. -/
theorem endsAtKey_of_bind {α σ : Type} {read : Tree → Except Json.Fault α}
    (front : Except Json.Fault σ) (next : σ → List (String × Tree) → Tail → Except Json.Fault α)
    (hread : ∀ after tail, read (.object (before ++ after) tail) = do next (← front) after tail)
    (hnext : ∀ s value after tail, next s ((key, value) :: after) tail = .error .mismatched) :
    EndsAtKey read before key := by
  cases front with
  | error fault =>
    refine ⟨fault, fun value after tail => hread _ tail, fun after tail a h => ?_⟩
    cases (hread after tail).symm.trans h
  | ok s =>
    refine ⟨.mismatched, fun value after tail => ?_, fun _ _ _ _ => rfl⟩
    exact (hread _ tail).trans (hnext s value after tail)

namespace Role

/-- Reading the object of a file or group ends with an unknown key, or in front of it. -/
theorem endsAtKey (hrole : role ≠ .modifier) (hkey : key ∉ role.keys)
    (before : List (String × Tree)) : EndsAtKey role.read before key := by
  cases role with
  | file =>
    refine endsAtKey_of_bind (RulesFile.groupsOf none before) (fun groups after tail => do
      let groups ← RulesFile.groupsOf groups after
      tail.check
      return { groups := ← Tree.required groups }) (fun after tail => ?_)
      fun groups value after tail => ?_
    · rw [read, RulesFile.ofTree, RulesFile.groupsOf_append, bind_assoc]
      rfl
    · rw [RulesFile.groupsOf_cons_eq_error groups hkey]
      rfl
  | group =>
    refine endsAtKey_of_bind (({} : GroupEntry.Draft).putAll before) (fun draft after tail => do
      let draft ← draft.putAll after
      tail.check
      draft.finish) (fun after tail => ?_) fun draft value after tail => ?_
    · rw [read, GroupEntry.ofTree, GroupEntry.Draft.putAll_append, bind_assoc]
      rfl
    · rw [GroupEntry.Draft.putAll, draft.put_eq_error hkey]
      rfl
  | modifier => exact absurd rfl hrole

/-- Objects of files and groups that are read have only declared keys. -/
theorem mem_keys_of_read {members : List (String × Tree)} {entry : role.Entry}
    (hrole : role ≠ .modifier) (h : role.read (.object members tail) = .ok entry) :
    ∀ member ∈ members, member.1 ∈ role.keys := by
  rintro ⟨key, value⟩ hmember
  by_contra hkey
  obtain ⟨before, after, rfl⟩ := List.append_of_mem hmember
  obtain ⟨fault, herror, -⟩ := endsAtKey hrole hkey before
  exact nomatch (herror value after tail).symm.trans h

/-- An unknown key that is added to one of them is the problem with it. -/
theorem read_insert_eq_error {entry : role.Entry} (hrole : role ≠ .modifier)
    (hkey : key ∉ role.keys) (h : role.read (.object (before ++ after) tail) = .ok entry) :
    role.read (.object (before ++ (key, value) :: after) tail) = .error .mismatched := by
  obtain ⟨fault, herror, hfault⟩ := endsAtKey hrole hkey before
  rw [herror, hfault after tail entry h]

end Role

/-! ## Texts -/

namespace RulesFile

variable {text text' : String}

/-- **An unknown key in an explicit modifier makes no difference to a rules file.** -/
theorem ofText_insert (context : FileContext .modifier)
    (htext : (context.fill (.object (before ++ after) tail)).IsOf text)
    (htext' : (context.fill (.object (before ++ (key, value) :: after) tail)).IsOf text')
    (hkey : key ∉ Role.modifier.keys) (hvalue : value.check = .ok ()) :
    ofText text' = ofText text := by
  rw [ofText, ofText, htext.read_eq, htext'.read_eq]
  exact context.readsPart.congr (ModifierEntry.ofTree_insert hkey hvalue)

/-- **In a text that is read, the objects of the file and of groups have only declared keys, and
with one more key it is no longer read.  With one more key in the object of an explicit modifier it
is read as the same.** -/
theorem ofText_keys (context : FileContext role) {members : List (String × Tree)} {file : RulesFile}
    (hread : ofText text = .ok file) (htext : (context.fill (.object members tail)).IsOf text) :
    (role ≠ .modifier → ∀ member ∈ members, member.1 ∈ role.keys) ∧
      ∀ before after {text' key value}, members = before ++ after → key ∉ role.keys →
        value.check = .ok () →
        (context.fill (.object (before ++ (key, value) :: after) tail)).IsOf text' →
          ofText text' = if role = .modifier then .ok file else .error .mismatched := by
  have htree := hread
  rw [ofText, htext.read_eq] at htree
  obtain ⟨entry, hentry⟩ := context.readsPart.exists_of_eq_ok htree
  refine ⟨fun hrole => Role.mem_keys_of_read hrole hentry, ?_⟩
  rintro before after text' key value rfl hkey hvalue htext'
  split
  case isTrue hrole =>
    subst hrole
    rw [ofText_insert context htext htext' hkey hvalue, hread]
  case isFalse hrole =>
    rw [ofText, htext'.read_eq]
    exact context.readsPart.eq_error htree (Role.read_insert_eq_error hrole hkey hentry)

/-- A rules file with one group and its explicit modifier, with more members in front of either. -/
def explicitValue (inModifier inGroup : List (String × Value)) : Value :=
  .object [("groups", .array [.object (inGroup ++ [("name", .string "g"),
    ("modifier", .object (inModifier ++ [("name", .string "m"),
      ("acceptable_flags", .array [.natural 1])])),
    ("kind", .string "class"), ("classes", .string "match_any")])])]

example : (explicitValue [("require_final", .bool true)] []).compact
    = "\x7b\"groups\":[\x7b\"name\":\"g\",\"modifier\":\x7b\"require_final\":true,\"name\":\"m\","
      ++ "\"acceptable_flags\":[1]\x7d,\"kind\":\"class\",\"classes\":\"match_any\"\x7d]\x7d" := by
  decide +kernel

/-- What is read of it where the other members make no difference. -/
def explicitFile : RulesFile := ⟨[⟨"g", .explicit "m" false [1], .classes, .always, none, none⟩]⟩

/-- The group in its list. -/
def groupContext : FileContext .group :=
  .member .whole [] [] .closed [] [] .closed

/-- The modifier in the group. -/
def modifierContext : FileContext .modifier :=
  .member (.member [("name", .scalar (.string "g"))]
    [("kind", .scalar (.string "class")), ("classes", .scalar (.string "match_any"))] .closed)
    [] [] .closed [] [] .closed

theorem fits_explicitValue {inModifier inGroup : List (String × Value)}
    (hmodifier : ∀ member ∈ inModifier, member.2.Fits 123)
    (hgroup : ∀ member ∈ inGroup, member.2.Fits 124) :
    (explicitValue inModifier inGroup).Fits Tree.maxDepth := by
  have hflags : (Value.array [.natural 1]).Fits 123 :=
    .array (List.forall_mem_singleton.mpr (.natural (by decide)))
  have hdefinition : (Value.object (inModifier ++ [("name", .string "m"),
      ("acceptable_flags", .array [.natural 1])])).Fits 124 :=
    .object (List.forall_mem_append.mpr ⟨hmodifier, by simp [Value.Fits.string, hflags]⟩)
  have hentry : (Value.object (inGroup ++ [("name", .string "g"),
      ("modifier", .object (inModifier ++ [("name", .string "m"),
        ("acceptable_flags", .array [.natural 1])])),
      ("kind", .string "class"), ("classes", .string "match_any")])).Fits 125 :=
    .object (List.forall_mem_append.mpr ⟨hgroup, by simp [Value.Fits.string, hdefinition]⟩)
  exact Value.Fits.lone (.array (List.forall_mem_singleton.mpr hentry))

/-- The member for the field `requires_final` is misspelt, so the field has its default. -/
theorem ofText_misspelt :
    ofText (explicitValue [("require_final", .bool true)] []).compact = .ok explicitFile ∧
      (modifierContext.fill (.object [("require_final", .scalar (.bool true)),
        ("name", .scalar (.string "m")),
        ("acceptable_flags", .array [.scalar (.number (.natural 1))] .closed)] .closed)).IsOf
          (explicitValue [("require_final", .bool true)] []).compact ∧
      "require_final" ∉ Role.modifier.keys := by
  have hfits : (explicitValue [("require_final", .bool true)] []).Fits Tree.maxDepth :=
    fits_explicitValue (by simp [Value.Fits.bool]) nofun
  exact ⟨Value.read_compact hfits rfl, Value.isOf_compact hfits, by decide⟩

theorem ofText_keys_explicit :
    ofText (explicitValue [("require_final", .bool true)] []).compact = .ok explicitFile ∧
      ofText (explicitValue [] [("method", .null)]).compact = .error .mismatched := by
  have hfits : (explicitValue [] []).Fits Tree.maxDepth := fits_explicitValue nofun nofun
  have hread : ofText (explicitValue [] []).compact = .ok explicitFile :=
    Value.read_compact hfits rfl
  constructor
  · exact (ofText_keys modifierContext hread (Value.isOf_compact hfits)).2 [] [_, _] rfl (by decide)
      rfl (Value.isOf_compact (fits_explicitValue (by simp [Value.Fits.bool]) nofun))
  · exact (ofText_keys groupContext hread (Value.isOf_compact hfits)).2 [] [_, _, _, _] rfl
      (by decide) rfl (Value.isOf_compact (fits_explicitValue nofun (by simp [Value.Fits.null])))

end RulesFile

end Rules

end AccessTransformer
