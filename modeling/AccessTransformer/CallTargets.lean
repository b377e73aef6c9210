import AccessTransformer.Archive
import AccessTransformer.ClassFile.DocumentCalls

/-!
# Callers of a method

The classes of an archive that call a virtual method, whatever class the call goes to: only the
name and the descriptor of the method count.  Classes can be excluded by name, but since a class
has its name in its file, they are read all the same.  The description of a module is no class, and
is not read.

* `CallTarget.callers`: the names of the calling classes, in order and each once.
-/

namespace AccessTransformer

/-- A virtual method, in any class. -/
structure CallTarget where
  name : String
  descriptor : String
  deriving DecidableEq, Repr

namespace CallTarget

/-- Whether a call goes to the method. -/
def isCalledBy (target : CallTarget) (call : CallSite) : Bool :=
  call.kind = .virtual ∧ call.name = target.name ∧ call.descriptor = target.descriptor

/-- Whether a class calls the method. -/
def isCalledIn (target : CallTarget) (calls : ClassCalls) : Bool :=
  calls.methods.any fun method => method.calls.any target.isCalledBy

/-- What the name of a module description ends in. -/
def moduleSuffix : String := "module-info.class"

/-- The callers with the class of an entry, of the archive with the given path. -/
def visitEntry (target : CallTarget) (path : String) (excluded : List String)
    (callers : List String) (entry : Archive.Entry) : List String × Outcome Unit :=
  if Archive.endsIn moduleSuffix entry.name then (callers, .ok ())
  else
    match ClassCalls.read entry.content with
    | .error failure => (callers, Outcome.during (.entry path entry.name) (.error failure))
    | .ok calls =>
      if calls.name ∉ excluded ∧ target.isCalledIn calls then (calls.name :: callers, .ok ())
      else (callers, .ok ())

/-- Names in order, each once. -/
def inOrder (names : List String) : List String :=
  (Text.sort names).eraseReps

/-- The classes in the archive with the given path that call the method, without those excluded. -/
def callers (target : CallTarget) (archive : Archive) (path : String) (excluded : List String) :
    Outcome (List String) :=
  match archive.walk (target.visitEntry path excluded) [] with
  | (callers, .ok _) => .ok (inOrder callers)
  | (_, .error failure) => .error failure

end CallTarget

end AccessTransformer
