import AccessTransformer.Rules.Fault
import AccessTransformer.Text.Blank

/-!
# Modifiers

A modifier is what a rule group asks for: the word that goes into the emitted lines, and which
access flags make a line superfluous.  Flags satisfy a modifier when they have a bit in common with
any of its acceptable flags, and the final bit too if the modifier asks for it.

The acceptable flags matter only through the union of their bits, which is all that a modifier
keeps of them.  A modifier that nothing satisfies, or that has no word, is none.
-/

namespace AccessTransformer.Rules

namespace Access

/-- The flag of what everybody can see. -/
def publicFlag : UInt16 := 0x0001

/-- The flag of what only subclasses and the same package can see. -/
def protectedFlag : UInt16 := 0x0004

/-- The flag of what cannot be extended, overridden or assigned. -/
def finalFlag : UInt16 := 0x0010

end Access

/-- What a rule group asks for. -/
structure Modifier where
  name : String
  requiresFinal : Bool
  /-- The bits of all acceptable flags. -/
  mask : UInt16
  deriving DecidableEq, Repr

namespace Modifier

/-- Whether access flags satisfy the modifier. -/
def Satisfies (modifier : Modifier) (access : UInt16) : Prop :=
  (modifier.requiresFinal = true → access &&& Access.finalFlag ≠ 0) ∧ access &&& modifier.mask ≠ 0

instance (modifier : Modifier) (access : UInt16) : Decidable (modifier.Satisfies access) :=
  inferInstanceAs (Decidable (_ ∧ _))

/-- The bits that any of the flags has. -/
def union (flags : List UInt16) : UInt16 := flags.foldl (· ||| ·) 0

/-- The modifier with the given name and acceptable flags. -/
def ofFlags (name : String) (requiresFinal : Bool) (acceptableFlags : List UInt16) :
    Except Fault Modifier :=
  if Text.isBlank name then .error .emptyModifierName
  else if union acceptableFlags = 0 then .error (.emptyFlagSet name)
  else .ok ⟨name, requiresFinal, union acceptableFlags⟩

/-- The modifiers that need no definition: public, and protected, for which public is enough. -/
def ofPreset (name : String) : Except Fault Modifier :=
  if name = "public" then .ok ⟨name, false, Access.publicFlag⟩
  else if name = "protected" then .ok ⟨name, false, Access.publicFlag ||| Access.protectedFlag⟩
  else .error (.unknownModifier name)

end Modifier

/-- A modifier as a rules file has it. -/
inductive ModifierEntry where
  /-- The name of a modifier that needs no definition. -/
  | preset (name : String)
  /-- A definition. -/
  | explicit (name : String) (requiresFinal : Bool) (acceptableFlags : List UInt16)
  deriving DecidableEq, Repr

/-- The modifier that an entry stands for. -/
def ModifierEntry.modifier : ModifierEntry → Except Fault Modifier
  | .preset name => Modifier.ofPreset name
  | .explicit name requiresFinal acceptableFlags =>
    Modifier.ofFlags name requiresFinal acceptableFlags

end AccessTransformer.Rules
