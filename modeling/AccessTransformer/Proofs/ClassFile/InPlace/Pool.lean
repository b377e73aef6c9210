import AccessTransformer.ClassFile.ConstantPool
import AccessTransformer.Proofs.ClassFile.InPlace.Cursor
import AccessTransformer.Proofs.ClassFile.InPlace.Text
import Mathlib.Tactic.SplitIfs

/-!
# Constants in tables

The constants that names are made of can be put into tables, one for each kind, that have a slot
for every index from the start.  An index goes up by one or two, and what is read is put into the
slot of its index, so the index must not go past the tables: not where the pool has no constants,
and not behind a 64-bit constant that would take one index more than there are.

* `Tables.ofSlots`: the tables for a row of slots.
* `tracks_constantsFrom`: the slots up to the index are those that skimming has found, and the
  others are empty.
* `tracks_readPool`: no constant is put outside its table.
-/

namespace AccessTransformer

namespace ClassFile.Slot

/-- The text in a slot. -/
def text? : Slot → Option String
  | text value => some value
  | _ => none

/-- The class in a slot. -/
def class? : Slot → Option UInt16
  | classInfo name => some name
  | _ => none

/-- The method reference in a slot. -/
def method? : Slot → Option (UInt16 × UInt16)
  | methodRef owner typed => some (owner, typed)
  | _ => none

/-- The name and type in a slot. -/
def typed? : Slot → Option (UInt16 × UInt16)
  | nameAndType name descriptor => some (name, descriptor)
  | _ => none

end ClassFile.Slot

namespace InPlace

open ClassFile Checked

/-! ## Tables -/

/-- The constants of a pool, by kind and index. -/
structure Tables where
  texts : List (Option String)
  classes : List (Option UInt16)
  methods : List (Option (UInt16 × UInt16))
  typed : List (Option (UInt16 × UInt16))
  deriving DecidableEq, Repr

/-- The table with a value in a slot. -/
def put {α : Type} (table : List (Option α)) (place : Nat) (value : α) :
    Checked Failure (List (Option α)) :=
  if place < table.length then Pure.pure (table.set place (some value))
  else breach (.slot place table.length)

namespace Tables

/-- Tables with so many slots, all of them empty. -/
def blank (slots : Nat) : Tables where
  texts := List.replicate slots none
  classes := List.replicate slots none
  methods := List.replicate slots none
  typed := List.replicate slots none

/-- The tables with what a slot holds, in the table of its kind. -/
def insert (tables : Tables) (place : Nat) : Slot → Checked Failure Tables
  | .text value => do return { tables with texts := ← put tables.texts place value }
  | .classInfo name => do return { tables with classes := ← put tables.classes place name }
  | .methodRef owner typed => do
    return { tables with methods := ← put tables.methods place (owner, typed) }
  | .nameAndType name descriptor => do
    return { tables with typed := ← put tables.typed place (name, descriptor) }
  | .other => pure tables

variable (tables : Tables) (index : UInt16)

/-- The text at an index. -/
def text : Outcome String :=
  match tables.texts[index.toNat]? with
  | some (some value) => .ok value
  | _ => Outcome.fail (.classFile (.missing .utf8 index))

/-- The name of the class at an index. -/
def className : Outcome String :=
  match tables.classes[index.toNat]? with
  | some (some name) => tables.text name
  | _ => Outcome.fail (.classFile (.missing .classInfo index))

/-- The two texts of the name and type at an index, as indices. -/
def nameAndType : Outcome (UInt16 × UInt16) :=
  match tables.typed[index.toNat]? with
  | some (some typed) => .ok typed
  | _ => Outcome.fail (.classFile (.missing .nameAndType index))

/-- The owner, name and descriptor of the method at an index. -/
def method : Outcome (String × String × String) :=
  match tables.methods[index.toNat]? with
  | some (some (owner, typed)) => do
    let (name, descriptor) ← tables.nameAndType typed
    return (← tables.className owner, ← tables.text name, ← tables.text descriptor)
  | _ => Outcome.fail (.classFile (.missing .methodRef index))

end Tables

/-! ## Reading -/

/-- The tables with the constant that follows its tag, and whether it takes two indices. -/
def constant (index : Nat) (tables : Tables) (tag : UInt8) : Reader (Tables × Bool) := do
  match tag.toNat with
  | 1 =>
    let bytes ← Reader.take (← Reader.u16).toNat
    let value ← (decode bytes).mapOutcome fun text =>
      (Outcome.lift .text text).during (.textConstant index)
    return (← tables.insert index (.text value), false)
  | 7 => return (← tables.insert index (.classInfo (← Reader.u16)), false)
  | 10 | 11 => return (← tables.insert index (.methodRef (← Reader.u16) (← Reader.u16)), false)
  | 12 => return (← tables.insert index (.nameAndType (← Reader.u16) (← Reader.u16)), false)
  | 3 | 4 => Reader.skip 4; return (tables, false)
  | 5 | 6 => Reader.skip 8; return (tables, true)
  | 8 | 16 | 19 | 20 => Reader.skip 2; return (tables, false)
  | 9 | 17 | 18 => Reader.skip 4; return (tables, false)
  | 15 => Reader.skip 3; return (tables, false)
  | _ => (safely (Outcome.fail (.classFile (.unsupportedTag tag))) : Checked Failure _)

/-- The tables with the constants from an index on, up to the last index of the pool. -/
def constantsFrom (count index : Nat) (tables : Tables) : Reader Tables :=
  if _h : index < count then do
    let tag ← Reader.u8
    let (tables, wide) ← constant index tables tag
    constantsFrom count (index + if wide then 2 else 1) tables
  else Pure.pure tables
termination_by count - index
decreasing_by split <;> omega

/-- The constants of a pool, in tables with a slot for each index, and one at least. -/
def readPool : Reader Tables := do
  let count ← Reader.u16
  constantsFrom count.toNat 1 (.blank (max count.toNat 1))

/-! ## The tables of a row of slots -/

namespace Tables

/-- The tables for a row of slots. -/
def ofSlots (slots : List Slot) : Tables where
  texts := slots.map Slot.text?
  classes := slots.map Slot.class?
  methods := slots.map Slot.method?
  typed := slots.map Slot.typed?

/-- The tables of a pool that was skimmed. -/
def ofPool (pool : ConstantPool) : Tables := ofSlots pool.slots.toList

theorem blank_eq (slots : Nat) : blank slots = ofSlots (List.replicate slots .other) := by
  simp only [blank, ofSlots, List.map_replicate, Slot.text?, Slot.class?, Slot.method?, Slot.typed?]

variable {front back : List Slot} {index : Nat}

/-- A value can be put into a slot of its table. -/
theorem put_map {α : Type} (kind : Slot → Option α) (slot : Slot) {value : α}
    (h : kind slot = some value) :
    put ((front ++ .other :: back).map kind) front.length value
      = safely (.ok ((front ++ slot :: back).map kind)) := by
  have hplace : front.length < ((front ++ .other :: back).map kind).length := by simp
  rw [put, if_pos hplace, List.map_append, List.map_append, List.map_cons, List.map_cons, h,
    List.set_append_right _ _ (by simp), List.length_map, Nat.sub_self, List.set_cons_zero]
  rfl

/-- Other tables stay as they are. -/
theorem map_other {α : Type} (kind : Slot → Option α) (slot : Slot)
    (h : kind slot = kind .other) :
    (front ++ .other :: back).map kind = (front ++ slot :: back).map kind := by
  rw [List.map_append, List.map_append, List.map_cons, List.map_cons, h]

/-- **What a slot holds comes into the slot of its index.** -/
theorem insert_eq (slot : Slot) :
    (ofSlots (front ++ .other :: back)).insert front.length slot
      = safely (.ok (ofSlots (front ++ slot :: back))) := by
  cases slot with
  | text value =>
    rw [insert, ofSlots, put_map Slot.text? (.text value) rfl,
      map_other Slot.class? (.text value) rfl, map_other Slot.method? (.text value) rfl,
      map_other Slot.typed? (.text value) rfl]
    rfl
  | classInfo name =>
    rw [insert, ofSlots, put_map Slot.class? (.classInfo name) rfl,
      map_other Slot.text? (.classInfo name) rfl, map_other Slot.method? (.classInfo name) rfl,
      map_other Slot.typed? (.classInfo name) rfl]
    rfl
  | methodRef owner typed =>
    rw [insert, ofSlots, put_map Slot.method? (.methodRef owner typed) rfl,
      map_other Slot.text? (.methodRef owner typed) rfl,
      map_other Slot.class? (.methodRef owner typed) rfl,
      map_other Slot.typed? (.methodRef owner typed) rfl]
    rfl
  | nameAndType name descriptor =>
    rw [insert, ofSlots, put_map Slot.typed? (.nameAndType name descriptor) rfl,
      map_other Slot.text? (.nameAndType name descriptor) rfl,
      map_other Slot.class? (.nameAndType name descriptor) rfl,
      map_other Slot.method? (.nameAndType name descriptor) rfl]
    rfl
  | other => rfl

variable (pool : ConstantPool) (place : UInt16)

@[simp] theorem text_ofPool : (ofPool pool).text place = pool.text place := by
  have hslot : (ofPool pool).texts[place.toNat]? = pool.slots[place.toNat]?.map Slot.text? := by
    simp [ofPool, ofSlots]
  rw [text, ConstantPool.text, hslot]
  rcases pool.slots[place.toNat]? with _ | slot
  · rfl
  · cases slot <;> rfl

@[simp] theorem className_ofPool : (ofPool pool).className place = pool.className place := by
  have hslot : (ofPool pool).classes[place.toNat]? = pool.slots[place.toNat]?.map Slot.class? := by
    simp [ofPool, ofSlots]
  rw [className, ConstantPool.className, hslot]
  rcases pool.slots[place.toNat]? with _ | slot
  · rfl
  · cases slot with
    | classInfo name => exact text_ofPool pool name
    | _ => rfl

theorem nameAndType_ofPool : (ofPool pool).nameAndType place = pool.nameAndType place := by
  have hslot : (ofPool pool).typed[place.toNat]? = pool.slots[place.toNat]?.map Slot.typed? := by
    simp [ofPool, ofSlots]
  rw [nameAndType, ConstantPool.nameAndType, hslot]
  rcases pool.slots[place.toNat]? with _ | slot
  · rfl
  · cases slot <;> rfl

@[simp] theorem method_ofPool : (ofPool pool).method place = pool.method place := by
  have hslot : (ofPool pool).methods[place.toNat]? = pool.slots[place.toNat]?.map Slot.method? := by
    simp [ofPool, ofSlots]
  rw [method, ConstantPool.method, hslot]
  rcases pool.slots[place.toNat]? with _ | slot
  · rfl
  · cases slot with
    | methodRef owner typed =>
      simp only [Option.map_some, Slot.method?, nameAndType_ofPool, className_ofPool, text_ofPool]
    | _ => rfl

end Tables

/-- A constant is put into the slot of its index. -/
theorem tracks_constant (front back : List Slot) (tag : UInt8) :
    Tracks (fun found : Slot × Bool => (Tables.ofSlots (front ++ found.1 :: back), found.2))
      (constant front.length (.ofSlots (front ++ .other :: back)) tag)
      (ConstantPool.constant front.length tag) := by
  have hskip : ∀ (count : Nat) (wide : Bool),
      Tracks (fun found : Slot × Bool => (Tables.ofSlots (front ++ found.1 :: back), found.2))
        (do Reader.skip count; return (.ofSlots (front ++ .other :: back), wide))
        (do Skim.skip count; return (.other, wide)) := fun count wide =>
    (Tracks.skip count).bind fun _ => Tracks.pure _ (Slot.other, wide)
  have hput : ∀ slot : Slot,
      Tracks (fun found : Slot × Bool => (Tables.ofSlots (front ++ found.1 :: back), found.2))
        (do return (← (Tables.ofSlots (front ++ .other :: back)).insert front.length slot, false))
        (Pure.pure (slot, false)) := fun slot => by
    rw [Tables.insert_eq]
    exact Tracks.pure _ (slot, false)
  rw [constant]
  split
  all_goals rename_i htag
  any_goals rw [ConstantPool.constant, htag]
  -- what is not kept is passed over
  any_goals exact hskip _ _
  · refine Tracks.u16.bind fun length => (Tracks.take _).bind fun bytes => ?_
    refine (Tracks.lift (by rw [decode_eq]; rfl)).bind fun value => hput (.text value)
  · exact Tracks.u16.bind fun name => hput (.classInfo name)
  · exact Tracks.u16.bind fun owner => Tracks.u16.bind fun typed => hput (.methodRef owner typed)
  · exact Tracks.u16.bind fun owner => Tracks.u16.bind fun typed => hput (.methodRef owner typed)
  · exact Tracks.u16.bind fun name => Tracks.u16.bind fun descriptor =>
      hput (.nameAndType name descriptor)
  · rw [ConstantPool.constant]
    split
    all_goals first | contradiction | exact Tracks.fail _

/-- **Where the index is below the count, the tables have a slot for it.**  The slots before it are
those that were read, and the others are empty. -/
theorem tracks_constantsFrom (front : List Slot) (count left : Nat)
    (hcount : count = front.length + left) :
    Tracks (fun found => Tables.ofSlots (front ++ found))
      (constantsFrom count front.length (.ofSlots (front ++ List.replicate left .other)))
      (ConstantPool.slotsFrom front.length left) := by
  induction left using Nat.strongRecOn generalizing front with
  | ind left ih =>
    rw [constantsFrom]
    match left with
    | 0 =>
      rw [dif_neg (by omega)]
      exact Tracks.pure _ []
    | 1 =>
      rw [dif_pos (by omega)]
      refine Tracks.u8.bind fun tag => (tracks_constant front [] tag).bind fun found => ?_
      obtain ⟨slot, wide⟩ := found
      -- a wide constant at the last index goes one further
      have hend : constantsFrom count (front.length + if wide then 2 else 1)
          (.ofSlots (front ++ [slot])) = Pure.pure (.ofSlots (front ++ [slot])) := by
        rw [constantsFrom, dif_neg (by split <;> omega)]
      simp only [hend]
      exact Tracks.pure _ [slot]
    | left + 2 =>
      rw [dif_pos (by omega)]
      refine Tracks.u8.bind fun tag => (tracks_constant front _ tag).bind fun found => ?_
      obtain ⟨slot, wide⟩ := found
      cases wide with
      | true =>
        refine Tracks.bind_pure (g := fun rest => slot :: .other :: rest) ?_
        have hrest := ih left (by omega) (front ++ [slot, .other]) (by simp; omega)
        simpa [List.replicate_succ] using hrest
      | false =>
        refine Tracks.bind_pure (g := fun rest => slot :: rest) ?_
        have hrest := ih (left + 1) (by omega) (front ++ [slot]) (by simp; omega)
        simpa using hrest

/-- **No constant is put outside its table.**  Where the count is zero, no index is below it. -/
theorem tracks_readPool : Tracks Tables.ofPool readPool ConstantPool.read := by
  refine Tracks.u16.bind fun count => ?_
  rw [Tables.blank_eq]
  refine Tracks.bind_pure (f := Tables.ofPool)
    (g := fun slots => ⟨(Slot.other :: slots).toArray⟩) ?_
  have hmax : max count.toNat 1 = (count.toNat - 1) + 1 := by omega
  simp only [id]
  rw [hmax, List.replicate_succ]
  rcases Nat.eq_zero_or_pos count.toNat with hzero | hpos
  · rw [hzero, constantsFrom]
    exact Tracks.pure _ []
  · exact tracks_constantsFrom [.other] count.toNat _ (by simp; omega)

end InPlace

end AccessTransformer
