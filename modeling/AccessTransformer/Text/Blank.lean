/-!
# Blank texts

A text is blank if it has nothing but white space, in the sense of Unicode: the spaces, the breaks
of lines and pages, and nothing that merely takes no room.
-/

namespace AccessTransformer.Text

/-- The ranges of the characters with the property White_Space. -/
def whiteSpace : List (Nat × Nat) :=
  [(0x09, 0x0D), (0x20, 0x20), (0x85, 0x85), (0xA0, 0xA0), (0x1680, 0x1680), (0x2000, 0x200A),
    (0x2028, 0x2029), (0x202F, 0x202F), (0x205F, 0x205F), (0x3000, 0x3000)]

/-- Whether a character is white space. -/
def isWhite (c : Char) : Bool :=
  whiteSpace.any fun range => Nat.ble range.1 c.toNat && Nat.ble c.toNat range.2

/-- Whether a text has nothing but white space. -/
def isBlank (text : String) : Bool := text.toList.all isWhite

end AccessTransformer.Text
