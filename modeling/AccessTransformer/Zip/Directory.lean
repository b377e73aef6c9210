import AccessTransformer.Archive
import AccessTransformer.Text.Unicode
import AccessTransformer.Zip.Deflate

/-!
# Packed archives

An archive in one file.  A directory at its end has a record for each entry, which says under which
name, how and where the content is packed; a record at the very end says where the directory is.
Contents are stored as they are or deflated.

* `Zip.unpack?`: the archive that a file holds.
-/

namespace AccessTransformer.Zip

/-! ## Numbers -/

/-- The number in some bytes from an offset on, lowest byte first. -/
def number? (file : ByteArray) (offset : Nat) : Nat → Option Nat
  | 0 => some 0
  | n + 1 => do
    let low ← if h : offset < file.size then some file[offset] else none
    let high ← number? file (offset + 1) n
    return high * 256 + low.toNat

/-- The bytes of a file between two offsets. -/
def slice (file : ByteArray) (offset length : Nat) : Bytes :=
  (file.extract offset (offset + length)).toList

/-! ## Records -/

/-- What the record at the end starts with. -/
def endMark : Nat := 0x06054b50

/-- What an entry in the directory starts with. -/
def entryMark : Nat := 0x02014b50

/-- What stands in front of a content. -/
def contentMark : Nat := 0x04034b50

/-- The offset of the record at the end, which is followed by a comment.  The offset is at most the
given one. -/
def findEnd? (file : ByteArray) : Nat → Option Nat
  | 0 => if number? file 0 4 = some endMark then some 0 else none
  | offset + 1 =>
    if number? file (offset + 1) 4 = some endMark then some (offset + 1) else findEnd? file offset

/-- The content that is packed at an offset. -/
def content? (file : ByteArray) (offset method length : Nat) : Option Bytes := do
  let mark ← number? file offset 4
  let nameLength ← number? file (offset + 26) 2
  let extraLength ← number? file (offset + 28) 2
  let packed := slice file (offset + 30 + nameLength + extraLength) length
  if mark ≠ contentMark ∨ packed.length ≠ length then none
  else if method = 0 then some packed
  else if method = 8 then Deflate.inflate? packed
  else none

/-- As many entries as the directory has, from an offset on. -/
def entries? (file : ByteArray) (offset : Nat) : Nat → Option (List Archive.Entry)
  | 0 => some []
  | count + 1 => do
    let mark ← number? file offset 4
    let method ← number? file (offset + 10) 2
    let length ← number? file (offset + 20) 4
    let nameLength ← number? file (offset + 28) 2
    let extraLength ← number? file (offset + 30) 2
    let commentLength ← number? file (offset + 32) 2
    let place ← number? file (offset + 42) 4
    let name ← Utf8.decode? (slice file (offset + 46) nameLength)
    let content ← content? file place method length
    if mark ≠ entryMark then none
    else
      let others ← entries? file (offset + 46 + nameLength + extraLength + commentLength) count
      return { name := String.ofList name, content } :: others

/-- The archive that a file holds, if it holds one. -/
def unpack? (file : ByteArray) : Option Archive := do
  let last ← findEnd? file (file.size - 22)
  let count ← number? file (last + 10) 2
  let directory ← number? file (last + 16) 4
  return { entries := ← entries? file directory count }

end AccessTransformer.Zip
