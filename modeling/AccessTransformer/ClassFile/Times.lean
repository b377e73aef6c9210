/-!
# Counted repetition

Lists in a class file have no end mark.  A count comes first, and then as many values as it says.
-/

namespace AccessTransformer.ClassFile

/-- The values of a reader that is run `count` times. -/
def times {m : Type → Type} [Monad m] {α : Type} (reader : m α) : Nat → m (List α)
  | 0 => pure []
  | count + 1 => do
    let first ← reader
    return first :: (← times reader count)

end AccessTransformer.ClassFile
