import AccessTransformer.ClassGraph.Basic
import AccessTransformer.Text.Order

/-!
# Archives

An archive is a list of named entries, some of which are class files.  Whoever goes through the
classes of an archive meets them in the order of their names, so that the way in which the archive
was put together shows nowhere, and stops at the first of them that fails.

* `Archive.walk`: one step for each class, with a state that is kept up to the failure.
* `Archive.classGraph`: the graph of all classes.
-/

namespace AccessTransformer

namespace Archive

/-- A named content of an archive. -/
structure Entry where
  name : String
  content : Bytes
  deriving DecidableEq, Repr

end Archive

/-- Named contents, each name once. -/
structure Archive where
  entries : List Archive.Entry
  deriving DecidableEq, Repr

namespace Archive

/-- What the name of a class file ends in. -/
def classSuffix : String := ".class"

/-- Whether a name ends in a text. -/
def endsIn (suffix name : String) : Bool := suffix.toList.isSuffixOf name.toList

/-- Whether an entry is a class file.  A name that ends in a slash is that of a directory, and
does not end as the names of class files do. -/
def Entry.isClass (entry : Entry) : Bool := endsIn classSuffix entry.name

/-- The class files of an archive, in the order of their names. -/
def classes (archive : Archive) : List Entry :=
  (archive.entries.filter Entry.isClass).mergeSort fun a b => Text.le a.name b.name

/-! ## Going through the classes -/

variable {σ ε : Type}

/-- The state after the steps for some entries, of which the first that fails is the last. -/
def steps (step : σ → Entry → σ × Except ε Unit) (state : σ) :
    List Entry → σ × Except ε Unit
  | [] => (state, .ok ())
  | entry :: entries =>
    match step state entry with
    | (state, .ok ()) => steps step state entries
    | (state, .error failure) => (state, .error failure)

/-- The state after the steps for all classes, and how many they are. -/
def walk (archive : Archive) (step : σ → Entry → σ × Except ε Unit) (state : σ) :
    σ × Except ε Nat :=
  match steps step state archive.classes with
  | (state, .ok ()) => (state, .ok archive.classes.length)
  | (state, .error failure) => (state, .error failure)

/-! ## The graph -/

/-- The graph with the class of an entry, of the archive with the given path. -/
def visitEntry (path : String) (graph : ClassGraph) (entry : Entry) :
    ClassGraph × Outcome Unit :=
  match ClassDeclaration.read entry.content with
  | .error failure => (graph, Outcome.during (.entry path entry.name) (.error failure))
  | .ok declaration =>
    match graph.visit declaration with
    | (graph, .error failure) =>
      (graph, Outcome.during (.entry path entry.name) (.error failure))
    | (graph, .ok _) => (graph, .ok ())

/-- The graph of all classes in the archive with the given path. -/
def classGraph (archive : Archive) (path : String) : Outcome ClassGraph :=
  match archive.walk (visitEntry path) ClassGraph.empty with
  | (graph, .ok _) => .ok graph
  | (_, .error failure) => .error failure

end Archive

end AccessTransformer
