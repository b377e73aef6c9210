import AccessTransformer.Archive
import AccessTransformer.Files.Path

/-!
# File systems

A tree of directories and files, with a working directory from which paths start.  A node is found
at a location, the names that lead to it from the root, innermost first, so that the location of a
directory is the tail of the locations of what it holds.  The root has the empty location and is
always there; so is the working directory, which is kept even when its name is gone.

A file holds bytes or an archive.  How an archive is packed into bytes matters here only as far as
it can be read as a text.

What is to be done in a directory can be refused, be it for want of a permission or of room, or
because a device fails.  What is refused stays so.

There are no symbolic links, and every file can be read and every directory listed: what a file
system refuses are changes.

* `FileSystem.resolve?`: the location of what a path names.
* `FileSystem.save`: a text under a path, complete in another file before it comes into its place.
* `FileSystem.clear`: a directory with all that it holds is gone.
-/

namespace AccessTransformer

/-- The names that lead to a node, innermost first. -/
abbrev Location := List String

/-- What a file holds. -/
inductive Content where
  | bytes (bytes : Bytes)
  | archive (archive : Archive)
  deriving DecidableEq, Repr

/-- A directory or a file. -/
inductive Node where
  | directory
  | file (content : Content)
  deriving DecidableEq, Repr

/-- What can be done in a directory. -/
inductive Operation where
  | makeDirectory
  | createFile
  | write
  | flush
  | rename
  deriving DecidableEq, Repr

/-- All nodes but the root, the working directory, and what is refused in which directories. -/
structure FileSystem where
  nodes : List (Location × Node) := []
  workingDirectory : Location := []
  refused : List (Operation × Location) := []
  deriving DecidableEq, Repr

/-- The content of a text file. -/
def Content.ofText (text : String) : Content := .bytes (text.toList.flatMap String.utf8EncodeChar)

/-- The record that ends an archive, when nothing is in front of it: its mark, and zeros for all
counts and sizes. -/
def emptyArchiveText : String := "PK\x05\x06" ++ String.ofList (List.replicate 18 '\x00')

/-- The text of a text file.  A packed archive is no text unless it is empty, because the
permissions of its entries are not written in characters. -/
def Content.text? : Content → Option String
  | .bytes written => (Utf8.decode? written).map String.ofList
  | .archive packed => if packed.entries = [] then some emptyArchiveText else none

namespace FileSystem

/-! ## Nodes -/

/-- The node at a location. -/
def node? (files : FileSystem) (location : Location) : Option Node :=
  if location = [] ∨ location = files.workingDirectory then some .directory
  else files.nodes.lookup location

/-- The file system with a node at a location. -/
def put (files : FileSystem) (location : Location) (node : Node) : FileSystem :=
  { files with nodes := (location, node) :: files.nodes.filter fun entry => entry.1 ≠ location }

/-- Whether a location is inside the directory at another one. -/
def IsInside (directory location : Location) : Prop := directory <:+ location ∧ directory ≠ location

instance (directory location : Location) : Decidable (IsInside directory location) :=
  inferInstanceAs (Decidable (_ ∧ _))

/-- The file system without what the directory at a location holds. -/
def removeInside (files : FileSystem) (directory : Location) : FileSystem :=
  { files with nodes := files.nodes.filter fun entry => ¬IsInside directory entry.1 }

/-- The file system without the node at a location. -/
def remove (files : FileSystem) (location : Location) : FileSystem :=
  { files with nodes := files.nodes.filter fun entry => entry.1 ≠ location }

/-- Whether an operation is refused in the directory at a location. -/
def Refuses (files : FileSystem) (operation : Operation) (directory : Location) : Prop :=
  (operation, directory) ∈ files.refused

instance (files : FileSystem) (operation : Operation) (directory : Location) :
    Decidable (files.Refuses operation directory) := inferInstanceAs (Decidable (_ ∈ _))

/-- Whether a node can have this name. -/
def IsName (name : String) : Prop := name.utf8ByteSize ≤ 255 ∧ '\x00' ∉ name.toList

instance (name : String) : Decidable (IsName name) := inferInstanceAs (Decidable (_ ∧ _))

/-! ## Paths -/

/-- The path of a location. -/
def pathOf (location : Location) : String := "/" ++ Path.join location.reverse

/-- Where a path starts. -/
def start (files : FileSystem) (path : String) : Location :=
  if Path.isAbsolute path then [] else files.workingDirectory

/-- The location to which segments lead from another one.  Every segment has to start in a
directory, even one that leads nowhere. -/
def follow? (files : FileSystem) (location : Location) : List String → Option Location
  | [] => some location
  | segment :: segments =>
    if files.node? location ≠ some .directory then none
    else if Path.IsIdle segment then files.follow? location segments
    else if segment = ".." then files.follow? location.tail segments
    else if files.node? (segment :: location) = none then none
    else files.follow? (segment :: location) segments

/-- The location of what a path names. -/
def resolve? (files : FileSystem) (path : String) : Option Location :=
  if Path.IsUsable path then files.follow? (files.start path) (Path.segments path) else none

/-- What a path names. -/
def at? (files : FileSystem) (path : String) : Option Node :=
  (files.resolve? path).bind files.node?

/-- Whether a path names anything. -/
def Exists (files : FileSystem) (path : String) : Prop := files.at? path ≠ none

instance (files : FileSystem) (path : String) : Decidable (files.Exists path) :=
  inferInstanceAs (Decidable (_ ≠ _))

/-- Whether a path names a directory. -/
def IsDirectory (files : FileSystem) (path : String) : Prop := files.at? path = some .directory

instance (files : FileSystem) (path : String) : Decidable (files.IsDirectory path) :=
  inferInstanceAs (Decidable (_ = _))

/-- The content of the file that a path names. -/
def read? (files : FileSystem) (path : String) : Option Content :=
  match files.at? path with
  | some (.file content) => some content
  | _ => none

/-! ## Writing -/

/-- The file system with directories wherever the segments lead from a location.  If that fails,
the directories before the failure are there. -/
def createDirectories (files : FileSystem) (location : Location) :
    List String → FileSystem × Bool
  | [] => (files, files.node? location = some .directory)
  | segment :: segments =>
    if files.node? location ≠ some .directory then (files, false)
    else if Path.IsIdle segment then files.createDirectories location segments
    else if segment = ".." then files.createDirectories location.tail segments
    else
      match files.node? (segment :: location) with
      | some .directory => files.createDirectories (segment :: location) segments
      | some (.file _) => (files, false)
      | none =>
        if IsName segment ∧ ¬files.Refuses .makeDirectory location then
          (files.put (segment :: location) .directory).createDirectories (segment :: location)
            segments
        else (files, false)

/-- The file system with the directory that a path names, and with those on the way there. -/
def createDirectory (files : FileSystem) (path : String) : FileSystem × Bool :=
  if Path.IsUsable path then files.createDirectories (files.start path) (Path.segments path)
  else (files, false)

/-- The location where a file can get under a path.  The directory of the file has to exist, and the
path has to end in a name. -/
def target? (files : FileSystem) (path : String) : Option Location :=
  match (Path.segments path).getLast? with
  | none => none
  | some name =>
    if Path.IsIdle name ∨ name = ".." ∨ ¬IsName name ∨ ¬Path.IsUsable path then none
    else
      match files.follow? (files.start path) (Path.segments path).dropLast with
      | none => none
      | some directory =>
        if files.node? directory ≠ some .directory then none
        else if files.node? (name :: directory) = some .directory then none
        else if files.Refuses .rename directory then none
        else some (name :: directory)

/-- The file system with a file under a path, in place of the file that was there. -/
def replace? (files : FileSystem) (path : String) (content : Content) : Option FileSystem :=
  (files.target? path).map fun target => files.put target (.file content)

/-- The file system with the file at a location under a path instead, in one step.  No file is on
the way to a directory, so it makes no difference that the path is followed without it. -/
def rename? (files : FileSystem) (location : Location) (path : String) : Option FileSystem :=
  match files.node? location with
  | some (.file content) => (files.remove location).replace? path content
  | _ => none

/-! ### Temporary files -/

/-- How the name of a file starts that is still being written. -/
def temporaryPrefix : String := ".tmp"

/-- The names for files that are still being written. -/
def temporaryName (n : Nat) : String := temporaryPrefix ++ String.ofList (Nat.toDigits 10 n)

/-- The longest path of a file that is still being written, from the root, beside which the file
will have its place. -/
def temporaryPath (files : FileSystem) (directory : String) : String :=
  Path.child
    (if Path.isAbsolute directory then directory
      else Path.child (pathOf files.workingDirectory) directory)
    (temporaryPrefix ++ "XXXXXX")

/-- A location in a directory that is free for a file that is still being written.  There are more
names to try than nodes. -/
def free? (files : FileSystem) (directory : Location) : Option Location :=
  ((List.range (files.nodes.length + 2)).map fun n => temporaryName n :: directory).find?
    fun location => files.node? location = none

/-- The file system with an empty file in the directory that a path names, and its location. -/
def createTemporary? (files : FileSystem) (directory : String) :
    Option (FileSystem × Location) :=
  if ¬Path.IsUsable (files.temporaryPath directory) then none
  else
    match files.resolve? directory with
    | none => none
    | some place =>
      if files.Refuses .createFile place then none
      else (files.free? place).map fun free => (files.put free (.file (.bytes [])), free)

/-! ### Texts -/

/-- What is left of the files, and the system's refusal to do more in a step. -/
def failed (files : FileSystem) (step : Step) : FileSystem × Outcome Unit :=
  (files, Outcome.during step (Outcome.fail .system))

/-- The file system with a text under a path, and with the directories that it takes.  The text is
complete in a temporary file in the same directory before it comes into its place, and if it does
not get there the temporary file is removed. -/
def save (files : FileSystem) (path text : String) : FileSystem × Outcome Unit :=
  let directory := Path.directory path
  match files.createDirectory directory with
  | (files, false) => files.failed (.create directory)
  | (files, true) =>
    match files.createTemporary? directory with
    | none => files.failed (.createTemporary directory)
    | some (files, temporary) =>
      if files.Refuses .write temporary.tail then (files.remove temporary).failed (.write path)
      else
        let files := files.put temporary (.file (.ofText text))
        if files.Refuses .flush temporary.tail then (files.remove temporary).failed (.flush path)
        else
          match files.rename? temporary path with
          | none => (files.remove temporary).failed (.replace path)
          | some files => (files, .ok ())

/-! ## Clearing -/

/-- Whether a path ends in the name of what it names. -/
def EndsInName (path : String) : Prop :=
  match (Path.segments path).filter (· ≠ "") |>.getLast? with
  | none => False
  | some segment => segment ≠ "." ∧ segment ≠ ".."

instance (path : String) : Decidable (EndsInName path) := by
  unfold EndsInName
  split <;> infer_instance

/-- The file system without what the directory that a path names holds, and without the directory
itself as far as the path still leads to it.

The directory is emptied first.  A path that goes through it and back then leads nowhere, and an
empty directory is left behind.  A path that still leads there has to call the directory by its
name. -/
def clear (files : FileSystem) (path : String) : FileSystem × Outcome Unit :=
  match files.resolve? path with
  | none => (files, Outcome.fail .system)
  | some location =>
    if files.node? location ≠ some .directory then (files, Outcome.fail .system)
    else
      let emptied := files.removeInside location
      match emptied.resolve? path with
      | none => (emptied, .ok ())
      | some location =>
        if EndsInName path then (emptied.remove location, .ok ())
        else (emptied, Outcome.fail .system)

/-! ## Listing -/

/-- What lies inside the directory at a location, at any depth, under the names that lead there from
the directory, in the order of the names. -/
def inside (files : FileSystem) (directory : Location) : List (List String × Node) :=
  let entries := files.nodes.filter fun entry => IsInside directory entry.1
  (entries.map fun entry =>
    ((entry.1.take (entry.1.length - directory.length)).reverse, entry.2)).mergeSort
      fun first second => Text.namesLe first.1 second.1

/-- The names that lead to each file inside the directory at a location. -/
def filesInside (files : FileSystem) (directory : Location) : List (List String) :=
  ((files.inside directory).filter fun entry => entry.2 ≠ .directory).map (·.1)

end FileSystem

end AccessTransformer
