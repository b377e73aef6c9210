import AccessTransformer.Proofs.Rules.Meaning
import AccessTransformer.Proofs.Archive
import AccessTransformer.Proofs.Outcomes
import Mathlib.Data.List.Nodup

/-!
# Lines that name more than one field

A line for a field says the class and the name of the field, and not its type.  A class may have
several fields of one name, and names with dots or spaces in them can be put together to the same
line.  Then a line is about all of these fields, whether a group asks for them or not.

A group has a line once for each field that it asks for.  So the number of times that a line occurs
tells whether the group asks for all that the line is about.  Where no class file gives a name to
two fields, and no class name has a dot or a space, a line is about one field, and occurs once.

* `Group.fieldsNamed`: the fields that a line is about.
* `Group.lines_eq_map_asked`: a line for each field that a group asks for.
* `Group.nodup_fieldLines`: where lines are about one field each.
* `Group.count_lines_and_asked`: what the lines of a group are about.
-/

namespace AccessTransformer

/-! ## Fields of a graph -/

/-- A field of a graph, with the class that has it. -/
structure FieldEntry where
  id : ClassId
  node : ClassNode
  field : Field
  deriving DecidableEq, Repr

namespace ClassGraph

/-- The fields of a node, with the node. -/
def nodeFields (entry : ClassNode × ClassId) : List FieldEntry :=
  entry.1.fields.map fun field => ⟨entry.2, entry.1, field⟩

/-- All fields of a graph, in the order of their classes. -/
def fieldEntries (graph : ClassGraph) : List FieldEntry :=
  graph.nodes.toList.zipIdx.flatMap nodeFields

theorem mem_fieldEntries_iff {graph : ClassGraph} {entry : FieldEntry} :
    entry ∈ graph.fieldEntries ↔
      graph.nodes[entry.id]? = some entry.node ∧ entry.field ∈ entry.node.fields := by
  rw [fieldEntries, List.mem_flatMap]
  constructor
  · rintro ⟨⟨node, id⟩, hnode, hentry⟩
    obtain ⟨field, hfield, rfl⟩ := List.mem_map.mp hentry
    rw [← Array.getElem?_toList]
    exact ⟨List.mem_zipIdx_iff_getElem?.mp hnode, hfield⟩
  · rintro ⟨hnode, hfield⟩
    rw [← Array.getElem?_toList] at hnode
    exact ⟨(entry.node, entry.id), List.mem_zipIdx_iff_getElem?.mpr hnode,
      List.mem_map.mpr ⟨entry.field, hfield, rfl⟩⟩

/-- A node with the outline of a declaration has fields of the same names. -/
theorem map_name_eq_of_outline_eq {graph : ClassGraph} {node : ClassNode}
    {declaration : ClassDeclaration} (h : graph.outline node = declaration.outline) :
    node.fields.map (·.name) = declaration.fields.map (·.name) := by
  have hfields : node.fields.map graph.fieldOutline = declaration.fields.map Member.fieldOutline :=
    congrArg Outline.fields h
  have hnames := congrArg (List.map FieldOutline.name) hfields
  rw [List.map_map, List.map_map] at hnames
  exact hnames

end ClassGraph

namespace Archive

variable {archive : Archive} {path : String} {graph : ClassGraph}

/-- Whether a class file of the archive gives the declaration. -/
def Gives (archive : Archive) (declaration : ClassDeclaration) : Prop :=
  ∃ content ∈ archive.classContents, ClassDeclaration.read content = .ok declaration

/-- The fields of a graph are declared, with their names and flags. -/
theorem exists_gives_of_mem_fieldEntries {entry : FieldEntry}
    (hgraph : archive.classGraph path = .ok graph) (hentry : entry ∈ graph.fieldEntries) :
    ∃ declaration, archive.Gives declaration ∧
      graph.outline entry.node = declaration.outline := by
  obtain ⟨hnode, hfield⟩ := ClassGraph.mem_fieldEntries_iff.mp hentry
  obtain ⟨declarations, hhold, hvisits⟩ := classGraph_eq_ok_iff.mp hgraph
  have h := hvisits.represents ClassGraph.represents_empty
  rw [List.nil_append, List.nil_append] at h
  have houtline := h.outline_eq entry.id entry.node hnode
  by_cases hdeclared : entry.node.name ∈ declarations.map (·.name)
  · obtain ⟨declaration, hdeclaration, hname⟩ := List.mem_map.mp hdeclared
    rw [← hname, outlineAmong_of_mem h.nodup_declared hdeclaration] at houtline
    obtain ⟨content, hcontent, hread⟩ := exists_of_forall₂_of_mem hhold hdeclaration
    exact ⟨declaration, ⟨content, archive.perm_classContents.mem_iff.mp hcontent, hread⟩, houtline⟩
  · rw [outlineAmong_of_notMem hdeclared] at houtline
    rw [ClassGraph.eq_placeholder_of_outline_eq houtline] at hfield
    exact absurd hfield List.not_mem_nil

/-- Whether no class file gives one name to two fields, and the names of classes can be told from
a line: they have no dots and no spaces. -/
def NamesFieldsOnce (archive : Archive) : Prop :=
  ∀ declaration, archive.Gives declaration → '.' ∉ declaration.name.toList ∧
    ' ' ∉ declaration.name.toList ∧ (declaration.fields.map (·.name)).Nodup

/-- Whether no class file gives one name and descriptor to two fields. -/
def DeclaresFieldsOnce (archive : Archive) : Prop :=
  ∀ declaration, archive.Gives declaration →
    (declaration.fields.map fun field => (field.name, field.descriptor)).Nodup

theorem declaresFieldsOnce_of_mapM {declarations : List ClassDeclaration}
    (hread : archive.classContents.mapM ClassDeclaration.read = .ok declarations)
    (h : ∀ declaration ∈ declarations,
      (declaration.fields.map fun field => (field.name, field.descriptor)).Nodup) :
    archive.DeclaresFieldsOnce := by
  rintro declaration ⟨content, hcontent, hgives⟩
  obtain ⟨declaration', hmem, hread'⟩ :=
    exists_of_forall₂_of_mem (mapM_eq_ok_iff.mp hread).flip hcontent
  rw [Except.ok.inj (hgives.symm.trans hread')]
  exact h declaration' hmem

end Archive

namespace Rules

open ClassGraph

/-! ## Names in lines -/

/-- Dots for slashes can be taken back where there are no other dots. -/
theorem dotted_inj {name other : String} (h : '.' ∉ name.toList) (hother : '.' ∉ other.toList)
    (heq : dotted name = dotted other) : name = other := by
  have hback : ∀ text : List Char, '.' ∉ text →
      (text.map fun c => if c = '/' then '.' else c).map (fun c => if c = '.' then '/' else c)
        = text := by
    intro text htext
    rw [List.map_map]
    refine (List.map_congr_left fun c hc => ?_).trans (List.map_id text)
    have hdot : c ≠ '.' := fun heq => htext (heq ▸ hc)
    by_cases hslash : c = '/'
    · simp [hslash]
    · simp [hslash, hdot]
  have hlists := congrArg String.toList heq
  rw [dotted, dotted, String.toList_ofList, String.toList_ofList] at hlists
  rw [← String.toList_inj, ← hback _ h, hlists, hback _ hother]

theorem space_notMem_dotted {name : String} (h : ' ' ∉ name.toList) :
    ' ' ∉ (dotted name).toList := by
  rw [dotted, String.toList_ofList, List.mem_map]
  rintro ⟨c, hc, heq⟩
  split at heq
  · exact absurd heq (by decide)
  · exact h (heq ▸ hc)

theorem takeWhile_ne_append_cons {α : Type} [DecidableEq α] {c : α} {front : List α}
    (h : c ∉ front) (back : List α) :
    (front ++ c :: back).takeWhile (fun a => decide (a ≠ c)) = front := by
  have hfront : ∀ a ∈ front, decide (a ≠ c) = true :=
    fun a ha => decide_eq_true fun heq : a = c => h (heq ▸ ha)
  rw [List.takeWhile_append_of_pos hfront, List.takeWhile_cons_of_neg (by simp), List.append_nil]

namespace Group

variable {archive : Archive} {path : String} {graph : ClassGraph} {group : Group}
  {predicate : FieldPredicate} {node other : ClassNode} {field field' : Field}

/-- A line for a field says its class and its name, where class names can be told from it. -/
theorem fieldLine_inj (hnode : '.' ∉ node.name.toList ∧ ' ' ∉ node.name.toList)
    (hother : '.' ∉ other.name.toList ∧ ' ' ∉ other.name.toList)
    (heq : group.fieldLine node field = group.fieldLine other field') :
    node.name = other.name ∧ field.name = field'.name := by
  have hlists : (dotted node.name).toList ++ ' ' :: field.name.toList
      = (dotted other.name).toList ++ ' ' :: field'.name.toList := by
    have hall := congrArg String.toList heq
    simp only [fieldLine_eq, String.toList_append, List.append_assoc] at hall
    exact List.append_cancel_left (List.append_cancel_left hall)
  have hdotted : (dotted node.name).toList = (dotted other.name).toList := by
    rw [← takeWhile_ne_append_cons (space_notMem_dotted hnode.2) field.name.toList, hlists,
      takeWhile_ne_append_cons (space_notMem_dotted hother.2)]
  rw [hdotted] at hlists
  exact ⟨dotted_inj hnode.1 hother.1 (String.toList_inj.mp hdotted),
    String.toList_inj.mp (List.cons.inj (List.append_cancel_left hlists)).2⟩

/-! ## What a group asks for -/

/-- The line for a field of a graph. -/
def entryLine (group : Group) (entry : FieldEntry) : String :=
  group.fieldLine entry.node entry.field

/-- Whether a group for fields that a predicate selects asks for a field: it is selected, in a class
that is, and does not satisfy the modifier yet.  Fields of classes with a dollar sign and then a
digit in the name are never asked for. -/
def asksFor (group : Group) (predicate : FieldPredicate) (graph : ClassGraph)
    (entry : FieldEntry) : Bool :=
  group.classes.selects graph entry.id && !isAnonymous entry.node.name.toList &&
    (predicate.selects graph entry.field && !decide (group.modifier.Satisfies entry.field.access))

/-- The fields of a graph that a line is about. -/
def fieldsNamed (group : Group) (graph : ClassGraph) (line : String) : List FieldEntry :=
  graph.fieldEntries.filter fun entry => group.entryLine entry = line

/-- The lines for a class are those for its fields that the group asks for. -/
theorem linesOf_eq_map_asked (htarget : group.target = .fields predicate) (id : ClassId)
    (node : ClassNode) : group.linesOf graph id node
      = ((nodeFields (node, id)).filter (group.asksFor predicate graph)).map group.entryLine := by
  rw [linesOf, targetLines, htarget, nodeFields, List.filter_map, List.map_map]
  cases hselects : group.classes.selects graph id && !isAnonymous node.name.toList with
  | false => simp [Function.comp_def, asksFor, hselects]
  | true => simp [Function.comp_def, asksFor, hselects, entryLine]

/-- **A group has a line for each field that it asks for.** -/
theorem lines_eq_map_asked (htarget : group.target = .fields predicate) :
    group.lines graph
      = (graph.fieldEntries.filter (group.asksFor predicate graph)).map group.entryLine := by
  rw [lines, fieldEntries, List.filter_flatMap, List.map_flatMap]
  exact List.flatMap_congr fun entry _ => linesOf_eq_map_asked htarget entry.2 entry.1

/-- A line occurs once for each field that it is about and that the group asks for. -/
theorem count_lines (htarget : group.target = .fields predicate) (line : String) :
    (group.lines graph).count line
      = (group.fieldsNamed graph line).countP (group.asksFor predicate graph) := by
  rw [lines_eq_map_asked htarget, List.count_eq_countP, List.countP_map, fieldsNamed,
    List.countP_filter, List.countP_filter]
  refine List.countP_congr fun entry _ => ?_
  simp [and_comm]

/-! ## Where lines are about one field each -/

/-- The classes of a graph that have fields are named as the archive names them. -/
theorem names_of_namesFieldsOnce (hgraph : archive.classGraph path = .ok graph)
    (honce : archive.NamesFieldsOnce) {entry : ClassNode × ClassId}
    (hentry : entry ∈ graph.nodes.toList.zipIdx) (hfields : entry.1.fields ≠ []) :
    ('.' ∉ entry.1.name.toList ∧ ' ' ∉ entry.1.name.toList) ∧
      (entry.1.fields.map (·.name)).Nodup := by
  obtain ⟨node, id⟩ := entry
  obtain ⟨field, hfield⟩ := List.exists_mem_of_ne_nil _ hfields
  have hmem : (⟨id, node, field⟩ : FieldEntry) ∈ graph.fieldEntries :=
    List.mem_flatMap.mpr ⟨(node, id), hentry, List.mem_map_of_mem hfield⟩
  obtain ⟨declaration, hgives, houtline⟩ := Archive.exists_gives_of_mem_fieldEntries hgraph hmem
  obtain ⟨hdot, hspace, hnodup⟩ := honce declaration hgives
  have hname : node.name = declaration.name := congrArg Outline.name houtline
  exact ⟨by rw [hname]; exact ⟨hdot, hspace⟩, by rwa [map_name_eq_of_outline_eq houtline]⟩

/-- Fields of one class have lines of their own if they have names of their own. -/
theorem nodup_map_nodeFields (group : Group) {entry : ClassNode × ClassId}
    (h : (entry.1.fields.map (·.name)).Nodup) :
    ((nodeFields entry).map group.entryLine).Nodup := by
  have hinj : Function.Injective fun name =>
      group.modifier.name ++ " " ++ dotted entry.1.name ++ " " ++ name :=
    fun _ _ heq => (String.append_right_inj _).mp heq
  have hlines := h.map hinj
  rw [List.map_map] at hlines
  rw [nodeFields, List.map_map]
  exact hlines

/-- Two fields of a graph have lines of their own where names can be told apart. -/
theorem nodup_fieldLines (hgraph : archive.classGraph path = .ok graph)
    (honce : archive.NamesFieldsOnce) : (graph.fieldEntries.map group.entryLine).Nodup := by
  rw [fieldEntries, List.map_flatMap, List.nodup_flatMap]
  constructor
  · intro entry hentry
    refine group.nodup_map_nodeFields ?_
    by_cases hfields : entry.1.fields = []
    · rw [hfields]
      exact List.nodup_nil
    · exact (names_of_namesFieldsOnce hgraph honce hentry hfields).2
  · -- classes have names of their own, and these show in the lines
    obtain ⟨mentioned, declared, hrepresents, -⟩ := Archive.exists_represents hgraph
    have hdistinct : (graph.nodes.toList.zipIdx.map (·.1.name)).Nodup := by
      have hnodup := hrepresents.nodup_names
      rw [names, ← List.zipIdx_map_fst 0 graph.nodes.toList, List.map_map] at hnodup
      exact hnodup
    refine (List.pairwise_map.mp hdistinct).imp_of_mem fun {a b} ha hb hne => ?_
    rw [Function.onFun, List.disjoint_left]
    intro line hline hline'
    obtain ⟨entry, hentry, rfl⟩ := List.mem_map.mp hline
    obtain ⟨entry', hentry', heq⟩ := List.mem_map.mp hline'
    obtain ⟨field, hfield, rfl⟩ := List.mem_map.mp hentry
    obtain ⟨field', hfield', rfl⟩ := List.mem_map.mp hentry'
    have hnames := (names_of_namesFieldsOnce hgraph honce ha (List.ne_nil_of_mem hfield)).1
    have hnames' := (names_of_namesFieldsOnce hgraph honce hb (List.ne_nil_of_mem hfield')).1
    exact hne (fieldLine_inj hnames' hnames heq).1.symm

/-- Where fields have lines of their own, the line for a field is about nothing else. -/
theorem fieldsNamed_eq_singleton {entry : FieldEntry}
    (hnodup : (graph.fieldEntries.map group.entryLine).Nodup)
    (hentry : entry ∈ graph.fieldEntries) :
    group.fieldsNamed graph (group.entryLine entry) = [entry] := by
  have hsame : group.fieldsNamed graph (group.entryLine entry)
      = graph.fieldEntries.filter fun other => other = entry := by
    refine List.filter_congr fun other hother => decide_eq_decide.mpr ⟨fun heq => ?_, ?_⟩
    · exact List.inj_on_of_nodup_map hnodup hother hentry heq
    · rintro rfl
      rfl
  rw [hsame, List.filter_eq, List.count_eq_one_of_mem (hnodup.of_map _) hentry]
  exact List.replicate_one

/-! ## What lines are about -/

/-- **A line of a group occurs once for each field that it is about and that the group asks for.**
So the group asks for all that the line is about exactly if it occurs as often as there are such
fields.  Where no class file gives a name to two fields, and class names have no dots and no spaces,
no line occurs twice, and each is about one declared field, which the group asks for. -/
theorem count_lines_and_asked (hgraph : archive.classGraph path = .ok graph)
    (htarget : group.target = .fields predicate) :
    (∀ line, (group.lines graph).count line
      = (group.fieldsNamed graph line).countP (group.asksFor predicate graph)) ∧
    (∀ line, (∀ entry ∈ group.fieldsNamed graph line, group.asksFor predicate graph entry = true) ↔
      (group.lines graph).count line = (group.fieldsNamed graph line).length) ∧
    (archive.NamesFieldsOnce → (group.lines graph).Nodup ∧ ∀ line ∈ group.lines graph,
      ∃ entry, group.fieldsNamed graph line = [entry] ∧
        group.asksFor predicate graph entry = true ∧
        ∃ declaration, archive.Gives declaration ∧
          graph.outline entry.node = declaration.outline) := by
  refine ⟨count_lines htarget, fun line => ?_, fun honce => ?_⟩
  · rw [count_lines htarget, List.countP_eq_length]
  · have hnodup : (graph.fieldEntries.map group.entryLine).Nodup :=
      nodup_fieldLines hgraph honce
    have hlines : group.lines graph
        = (graph.fieldEntries.filter (group.asksFor predicate graph)).map group.entryLine :=
      lines_eq_map_asked htarget
    constructor
    · rw [hlines]
      exact hnodup.sublist (List.filter_sublist.map _)
    · intro line hline
      rw [hlines] at hline
      obtain ⟨entry, hentry, rfl⟩ := List.mem_map.mp hline
      obtain ⟨hmem, hasked⟩ := List.mem_filter.mp hentry
      exact ⟨entry, fieldsNamed_eq_singleton hnodup hmem, hasked,
        Archive.exists_gives_of_mem_fieldEntries hgraph hmem⟩

end Group

/-! ## Lines for one field and lines for more -/

/-- A class file for a class with a private field, of type `int`, with the given names. -/
def fileWithField (name field : Bytes) : Bytes :=
  [0xCA, 0xFE, 0xBA, 0xBE, 0x00, 0x00, 0x00, 0x34, 0x00, 0x05, 0x01, 0x00, .ofNat name.length]
    ++ name ++ [0x07, 0x00, 0x01, 0x01, 0x00, .ofNat field.length] ++ field
    ++ [0x01, 0x00, 0x01, 0x49, 0x00, 0x00, 0x00, 0x02, 0x00, 0x00, 0x00, 0x00, 0x00, 0x01, 0x00,
      0x02, 0x00, 0x03, 0x00, 0x04, 0x00, 0x00, 0x00, 0x00, 0x00, 0x00]

/-- An archive with a class `a/b` with a field `x`. -/
def plain : Archive := ⟨[⟨"b.class", fileWithField [0x61, 0x2F, 0x62] [0x78]⟩]⟩

/-- The graph of that archive. -/
def graphPlain : ClassGraph :=
  .ofNodes #[{ name := "a/b", fields := [⟨2, "x", 1⟩] }, { name := "I" }] [0]

/-- The group by which the fields that a predicate selects are to be public. -/
def fieldsMadePublic (predicate : FieldPredicate) : Group :=
  ⟨"fields", ⟨"public", false, Access.publicFlag⟩, .always, .fields predicate⟩

theorem gives_plain_iff (declaration : ClassDeclaration) :
    plain.Gives declaration ↔ declaration = ⟨"a/b", 0, none, [], [⟨2, "x", "I"⟩], []⟩ := by
  have hread : ClassDeclaration.read (fileWithField [0x61, 0x2F, 0x62] [0x78])
      = .ok ⟨"a/b", 0, none, [], [⟨2, "x", "I"⟩], []⟩ := by cbv
  have hcontents : plain.classContents = [fileWithField [0x61, 0x2F, 0x62] [0x78]] := by decide
  rw [Archive.Gives, hcontents]
  simp only [List.mem_singleton, exists_eq_left, hread, Except.ok.injEq]
  exact eq_comm

/-- The line for the field of that archive is about this field alone. -/
theorem count_lines_and_asked_plain :
    plain.classGraph "a.jar" = .ok graphPlain ∧ plain.NamesFieldsOnce ∧
      (fieldsMadePublic .always).lines graphPlain = ["public a.b x"] ∧
      ∃ entry, (fieldsMadePublic .always).fieldsNamed graphPlain "public a.b x" = [entry] ∧
        (fieldsMadePublic .always).asksFor .always graphPlain entry = true := by
  have hgraph : plain.classGraph "a.jar" = .ok graphPlain := by cbv
  have honce : plain.NamesFieldsOnce := by
    intro declaration hgives
    rw [gives_plain_iff] at hgives
    subst hgives
    decide
  have hlines : (fieldsMadePublic .always).lines graphPlain = ["public a.b x"] := by decide
  have htarget : (fieldsMadePublic .always).target = .fields .always := rfl
  obtain ⟨-, -, hexact⟩ := Group.count_lines_and_asked hgraph htarget
  obtain ⟨entry, hnamed, hasked, -⟩ := (hexact honce).2 "public a.b x" (by rw [hlines]; decide)
  exact ⟨hgraph, honce, hlines, entry, hnamed, hasked⟩

/-- A class file for a class `A` with three fields `x`, two of them private, of the classes `I`, `J`
and `K`. -/
def fileOverloaded : Bytes :=
  [0xCA, 0xFE, 0xBA, 0xBE, 0x00, 0x00, 0x00, 0x34, 0x00, 0x07, 0x01, 0x00, 0x01, 0x41, 0x07, 0x00,
    0x01, 0x01, 0x00, 0x01, 0x78, 0x01, 0x00, 0x03, 0x4C, 0x49, 0x3B, 0x01, 0x00, 0x03, 0x4C, 0x4A,
    0x3B, 0x01, 0x00, 0x03, 0x4C, 0x4B, 0x3B, 0x00, 0x00, 0x00, 0x02, 0x00, 0x00, 0x00, 0x00, 0x00,
    0x03, 0x00, 0x02, 0x00, 0x03, 0x00, 0x04, 0x00, 0x00, 0x00, 0x02, 0x00, 0x03, 0x00, 0x05, 0x00,
    0x00, 0x00, 0x01, 0x00, 0x03, 0x00, 0x06, 0x00, 0x00, 0x00, 0x00, 0x00, 0x00]

/-- An archive with that class. -/
def overloaded : Archive := ⟨[⟨"A.class", fileOverloaded⟩]⟩

/-- The graph of that archive. -/
def graphOverloaded : ClassGraph :=
  .ofNodes #[{ name := "A", fields := [⟨2, "x", 1⟩, ⟨2, "x", 2⟩, ⟨1, "x", 3⟩] }, { name := "I" },
    { name := "J" }, { name := "K" }] [0]

/-- An archive with classes `a.b` and `a/b`, each with a field `x`, a class `a` with a field `b c`,
and a class `a b` with a field `c`. -/
def mistakable : Archive :=
  ⟨[⟨"1.class", fileWithField [0x61, 0x2E, 0x62] [0x78]⟩,
    ⟨"2.class", fileWithField [0x61, 0x2F, 0x62] [0x78]⟩,
    ⟨"3.class", fileWithField [0x61] [0x62, 0x20, 0x63]⟩,
    ⟨"4.class", fileWithField [0x61, 0x20, 0x62] [0x63]⟩]⟩

/-- The graph of that archive. -/
def graphMistakable : ClassGraph :=
  .ofNodes #[{ name := "a.b", fields := [⟨2, "x", 1⟩] }, { name := "I" },
    { name := "a/b", fields := [⟨2, "x", 1⟩] }, { name := "a", fields := [⟨2, "b c", 1⟩] },
    { name := "a b", fields := [⟨2, "c", 1⟩] }] [4, 3, 2, 0]

theorem declaresFieldsOnce_overloaded : overloaded.DeclaresFieldsOnce := by
  have hread : overloaded.classContents.mapM ClassDeclaration.read = .ok
      [⟨"A", 0, none, [], [⟨2, "x", "LI;"⟩, ⟨2, "x", "LJ;"⟩, ⟨1, "x", "LK;"⟩], []⟩] := by cbv
  exact Archive.declaresFieldsOnce_of_mapM hread (by decide)

theorem declaresFieldsOnce_mistakable : mistakable.DeclaresFieldsOnce := by
  have hread : mistakable.classContents.mapM ClassDeclaration.read = .ok
      [⟨"a.b", 0, none, [], [⟨2, "x", "I"⟩], []⟩, ⟨"a/b", 0, none, [], [⟨2, "x", "I"⟩], []⟩,
        ⟨"a", 0, none, [], [⟨2, "b c", "I"⟩], []⟩, ⟨"a b", 0, none, [], [⟨2, "c", "I"⟩], []⟩] := by
    cbv
  exact Archive.declaresFieldsOnce_of_mapM hread (by decide)

/-- A line can be about fields of which the group asks for one, and occur more than once. -/
theorem lines_overloaded_mistakable :
    (overloaded.DeclaresFieldsOnce ∧ overloaded.classGraph "a.jar" = .ok graphOverloaded ∧
      (fieldsMadePublic (.test (.ofType (.test (.named "I"))))).lines graphOverloaded
        = ["public A x"] ∧
      ((fieldsMadePublic (.test (.ofType (.test (.named "I"))))).fieldsNamed graphOverloaded
        "public A x").map ((fieldsMadePublic (.test (.ofType (.test (.named "I"))))).asksFor
          (.test (.ofType (.test (.named "I")))) graphOverloaded) = [true, false, false] ∧
      (fieldsMadePublic .always).lines graphOverloaded = ["public A x", "public A x"]) ∧
    (mistakable.DeclaresFieldsOnce ∧ mistakable.classGraph "a.jar" = .ok graphMistakable ∧
      (fieldsMadePublic .always).lines graphMistakable
        = ["public a.b x", "public a.b x", "public a b c", "public a b c"]) := by
  refine ⟨⟨declaresFieldsOnce_overloaded, ?_, ?_, ?_, ?_⟩, declaresFieldsOnce_mistakable, ?_, ?_⟩
  · cbv
  · decide
  · decide
  · decide
  · cbv
  · decide

end Rules

end AccessTransformer
