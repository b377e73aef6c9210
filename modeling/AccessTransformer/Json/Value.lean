import AccessTransformer.Json.Quoted

/-!
# JSON values

A value that is written out.  Objects keep their members in order.  There is a compact form without
any space, and a form of lists with one item in each line.
-/

namespace AccessTransformer.Json

/-- A value of a JSON text. -/
inductive Value where
  | null
  | bool (b : Bool)
  | natural (n : Nat)
  | string (s : String)
  | array (items : List Value)
  | object (members : List (String × Value))

namespace Value

/-- A string as it is written. -/
def quoted (s : String) : List Char := Quoted.encode s.toList

mutual

/-- The text of a value, without any space. -/
def compactChars : Value → List Char
  | .null => ['n', 'u', 'l', 'l']
  | .bool true => ['t', 'r', 'u', 'e']
  | .bool false => ['f', 'a', 'l', 's', 'e']
  | .natural n => Nat.toDigits 10 n
  | .string s => quoted s
  | .array [] => ['[', ']']
  | .array (item :: items) => '[' :: (compactChars item ++ restOfItems items)
  | .object [] => ['\x7b', '\x7d']
  | .object ((key, value) :: members) =>
    '\x7b' :: (quoted key ++ ':' :: (compactChars value ++ restOfMembers members))

/-- The items behind the first, and the end of the array. -/
def restOfItems : List Value → List Char
  | [] => [']']
  | item :: items => ',' :: (compactChars item ++ restOfItems items)

/-- The members behind the first, and the end of the object. -/
def restOfMembers : List (String × Value) → List Char
  | [] => ['\x7d']
  | (key, value) :: members =>
    ',' :: (quoted key ++ ':' :: (compactChars value ++ restOfMembers members))

end

/-- The text of a value, without any space. -/
def compact (value : Value) : String := String.ofList value.compactChars

/-- The text of a list of strings, with one of them in each line. -/
def lines (items : List String) : String :=
  if items = [] then "[]"
  else
    "[\n" ++ ",\n".intercalate (items.map fun s => "  " ++ String.ofList (quoted s)) ++ "\n]"

end Value

end AccessTransformer.Json
