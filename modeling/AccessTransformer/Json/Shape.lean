import AccessTransformer.Json.Tree

/-!
# Shapes of JSON values

What a reader can expect in a place: a string, nothing, a list, an alternative, a record given by
its fields in order, or any value at all.  Each reader says what the tree gives, or which problem
is the first in the order of the text.

An alternative is a string, or an object with the name of the alternative as its only key.  Where
one is expected, the reader looks no further than at the first character: everything that starts
neither a string nor an object is malformed.

* `Tree.check`: no problem anywhere in a value.
-/

namespace AccessTransformer.Json

/-- The problem with how a container ends. -/
def Tail.check : Tail → Except Fault Unit
  | .closed => .ok ()
  | .unclosed fault => .error fault
  | .keyless gap => .error gap.keyFault

namespace Tree

/-! ## Strings and nothing -/

/-- The string that is the value. -/
def string : Tree → Except Fault String
  | .scalar (.string s) => .ok s
  | .gap g => .error g.fault
  | _ => .error .mismatched

/-- The value is null. -/
def null : Tree → Except Fault Unit
  | .scalar .null => .ok ()
  | .gap g => .error g.fault
  | _ => .error .mismatched

/-- A value that is absent if it is null. -/
def orNull {α : Type} (read : Tree → Except Fault α) : Tree → Except Fault (Option α)
  | .scalar .null => .ok none
  | .gap ⟨some 'n', fault⟩ => .error fault
  | tree => (read tree).map some

/-! ## Alternatives -/

/-- The problem behind the member of an object that stands for an alternative. -/
def loneMember : List (String × Tree) → Tail → Except Fault Unit
  | [], .closed => .ok ()
  | [], .unclosed fault => .error fault
  | [], .keyless _ => .error .malformed
  | _ :: _, _ => .error .malformed

/-- The problem with a value that is neither a string nor an object with a member, where an
alternative is expected. -/
def choiceFault : Tree → Fault
  | .gap g => g.keyFault
  | .object [] (.unclosed fault) => fault
  | .object [] (.keyless g) => g.keyFault
  | _ => .malformed

/-- An alternative that is given by its name alone. -/
def name {α : Type} (named? : String → Option α) : Tree → Except Fault α
  | .scalar (.string s) =>
    match named? s with
    | some a => .ok a
    | none => .error .mismatched
  | .object ((key, payload) :: more) tail =>
    match named? key with
    | some a => do
      payload.null
      loneMember more tail
      return a
    | none => .error .mismatched
  | tree => .error tree.choiceFault

/-! ## Lists and records -/

/-- The values of a list. -/
def list {α : Type} (read : Tree → Except Fault α) : Tree → Except Fault (List α)
  | .array items tail => do
    let values ← items.mapM read
    tail.check
    return values
  | .gap g => .error g.fault
  | _ => .error .mismatched

/-- The next field of a record that is written as an array, and the items behind it. -/
def nextItem {α : Type} (read : Tree → Except Fault α) (tail : Tail) :
    List Tree → Except Fault (Option α × List Tree)
  | [] => do
    tail.check
    return (none, [])
  | item :: items => do return (some (← read item), items)

/-- The problem behind the last field of a record that is written as an array. -/
def lastItem (tail : Tail) : List Tree → Except Fault Unit
  | [] => tail.check
  | _ :: _ => .error .malformed

/-- The field of a record that may not be left out. -/
def required {α : Type} : Option α → Except Fault α
  | some a => .ok a
  | none => .error .mismatched

/-! ## Any value -/

mutual

/-- The first problem anywhere in a value. -/
def check : Tree → Except Fault Unit
  | .scalar _ => .ok ()
  | .array items tail => do
    checkItems items
    tail.check
  | .object members tail => do
    checkMembers members
    tail.check
  | .gap g => .error g.fault

/-- The first problem anywhere in some items. -/
def checkItems : List Tree → Except Fault Unit
  | [] => .ok ()
  | item :: items => do
    check item
    checkItems items

/-- The first problem anywhere in the values of some members. -/
def checkMembers : List (String × Tree) → Except Fault Unit
  | [] => .ok ()
  | (_, value) :: members => do
    check value
    checkMembers members

end

/-! ## Texts -/

/-- What a whole text gives, which ends behind its value. -/
def read {α : Type} (shape : Tree → Except Fault α) (text : String) : Except Fault α :=
  match ofTokens (Token.ofText text.toList) with
  | (tree, rest) => do
    let value ← shape tree
    if rest = [] then return value else .error .malformed

end Tree

end AccessTransformer.Json
