/-!
# Paths

A path is a text whose segments stand between slashes.  It is kept as it was given, because that is
how it is shown and passed on; what its segments mean is for the file system to say, but some
questions are about the text alone: which directory holds what the path names, and what kind of
archive its name promises.

Empty segments and dots that stand for the same directory are passed over in these questions, except
for a dot in front.
-/

namespace AccessTransformer.Path

/-! ## Segments -/

/-- The texts between the slashes of a text. -/
def split : List Char → List (List Char)
  | [] => [[]]
  | c :: text =>
    match split text with
    | [] => [[]]
    | segment :: segments =>
      if c = '/' then [] :: segment :: segments else (c :: segment) :: segments

theorem split_ne_nil (text : List Char) : split text ≠ [] := by
  cases text with
  | nil => simp [split]
  | cons c text =>
    simp only [split]
    split
    · simp
    · split <;> simp

/-- The segments of a path.  A slash in front makes the first one empty, one at the end the last. -/
def segments (path : String) : List String := (split path.toList).map String.ofList

/-- The path with the given segments. -/
def join (segments : List String) : String := "/".intercalate segments

/-- Whether a path starts at the root. -/
def isAbsolute (path : String) : Bool := path.toList.head? = some '/'

/-- Whether a segment leads nowhere. -/
def IsIdle (segment : String) : Prop := segment = "" ∨ segment = "."

instance (segment : String) : Decidable (IsIdle segment) :=
  inferInstanceAs (Decidable (segment = "" ∨ segment = "."))

/-- The segments without those at the end that lead nowhere.  The first segment stays. -/
def trimEnd : List String → List String
  | [] => []
  | first :: segments =>
    first :: (segments.reverse.dropWhile fun segment => decide (IsIdle segment)).reverse

/-! ## What can be looked up -/

/-- The most bytes that a path may have. -/
def maxBytes : Nat := 4095

/-- Whether a path can be looked up.  One that is empty, too long or has a zero in it names nothing,
whatever its segments are. -/
def IsUsable (path : String) : Prop :=
  path ≠ "" ∧ path.utf8ByteSize ≤ maxBytes ∧ '\x00' ∉ path.toList

instance (path : String) : Decidable (IsUsable path) :=
  inferInstanceAs (Decidable (_ ∧ _ ∧ _))

/-! ## The directory of a path -/

/-- The path of the directory that holds what a path names.  A path of one segment is in the working
directory, and so is a path that names nothing inside a directory. -/
def directory (path : String) : String :=
  match trimEnd (segments path) with
  | [] | [_] => "."
  | first :: rest =>
    match trimEnd (first :: rest.dropLast) with
    | [""] => "/"
    | trimmed => join trimmed

/-- A path with a name behind it. -/
def child (path name : String) : String :=
  if path = "" ∨ path.toList.getLast? = some '/' then path ++ name else path ++ "/" ++ name

/-! ## The name of a path -/

/-- The last segment of a path that leads somewhere. -/
def name? (path : String) : Option String :=
  ((segments path).filter fun segment => decide (¬IsIdle segment)).getLast?

/-- What stands behind the last dot of a name.  A dot in front does not count, and the name of the
directory above has none that does. -/
def extensionOfName? (name : List Char) : Option (List Char) :=
  if name = ['.', '.'] then none
  else
    match name.reverse.dropWhile (· ≠ '.') with
    | [] | [_] => none
    | _ :: _ :: _ => some (name.reverse.takeWhile (· ≠ '.')).reverse

/-- The extension of a path, without its dot. -/
def extension? (path : String) : Option String :=
  (name? path).bind fun name => (extensionOfName? name.toList).map String.ofList

/-- The capital letters of ASCII as small ones. -/
def lowered (text : String) : String := String.ofList (text.toList.map Char.toLower)

/-- How an archive of the given path is packed. -/
def archiveFormat (path : String) : String :=
  if (extension? path).map lowered = some "jar" then "jar" else "zip"

end AccessTransformer.Path
