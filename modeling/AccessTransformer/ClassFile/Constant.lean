import AccessTransformer.Bytes
import AccessTransformer.Text.Decimal

/-!
# Constants of a class file

The entries of a constant pool, each with the fields that its tag prescribes, and the text by which
a message names an entry that is not the expected one.
-/

namespace AccessTransformer

/-- An entry of a constant pool.  `empty` stands at index zero and behind each of the constants
that take two places. -/
inductive Constant where
  | empty
  | utf8 (value : String)
  | integer (value : Int)
  | float (bits : Nat)
  | long (value : Int)
  | double (bits : Nat)
  | classInfo (name : UInt16)
  | string (text : UInt16)
  | fieldRef (owner nameAndType : UInt16)
  | methodRef (owner nameAndType : UInt16)
  | interfaceMethodRef (owner nameAndType : UInt16)
  | nameAndType (name descriptor : UInt16)
  | methodHandle (kind : UInt8) (reference : UInt16)
  | methodType (descriptor : UInt16)
  | dynamic (bootstrap nameAndType : UInt16)
  | invokeDynamic (bootstrap nameAndType : UInt16)
  | module (name : UInt16)
  | package (name : UInt16)
  deriving DecidableEq, Repr

namespace Constant

/-- A record as a message shows it: its name, and its fields in order. -/
def record (name : String) (fields : List (String × String)) : String :=
  name ++ " \x7b " ++ ", ".intercalate (fields.map fun field => field.1 ++ ": " ++ field.2)
    ++ " \x7d"

/-- How a message shows a constant. -/
def describe : Constant → String
  | .empty => "Empty"
  | .utf8 value => record "Utf8" [("value", value.quote)]
  | .integer value => record "Integer" [("value", toString value)]
  | .float bits => record "Float" [("value", (Binary.ofBits .single bits).text)]
  | .long value => record "Long" [("value", toString value)]
  | .double bits => record "Double" [("value", (Binary.ofBits .double bits).text)]
  | .classInfo name => record "Class" [("name_index", toString name)]
  | .string text => record "String" [("string_index", toString text)]
  | .fieldRef owner member => reference "Fieldref" owner member
  | .methodRef owner member => reference "Methodref" owner member
  | .interfaceMethodRef owner member => reference "InterfaceMethodref" owner member
  | .nameAndType name descriptor =>
    record "NameAndType" [("name_index", toString name), ("descriptor_index", toString descriptor)]
  | .methodHandle kind target =>
    record "MethodHandle" [("reference_kind", toString kind), ("reference_index", toString target)]
  | .methodType descriptor => record "MethodType" [("descriptor_index", toString descriptor)]
  | .dynamic bootstrap member => bootstrapped "Dynamic" bootstrap member
  | .invokeDynamic bootstrap member => bootstrapped "InvokeDynamic" bootstrap member
  | .module name => record "Module" [("name_index", toString name)]
  | .package name => record "Package" [("name_index", toString name)]
where
  /-- A reference to a member. -/
  reference (name : String) (owner member : UInt16) : String :=
    record name
      [("class_index", toString owner), ("name_and_type_index", toString member)]
  /-- A constant computed by a bootstrap method. -/
  bootstrapped (name : String) (bootstrap member : UInt16) : String :=
    record name
      [("bootstrap_method_attr_index", toString bootstrap),
        ("name_and_type_index", toString member)]

end Constant

end AccessTransformer
