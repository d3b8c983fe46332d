import ImageDerivative.Cursor
import ImageDerivative.Files.Path

/-! Headers that are read for the size of an image and for nothing else. -/
namespace ImageDerivative

inductive HeaderError where
  /-- The data ends inside the header. -/
  | cutShort
  /-- The header is not of the format, or announces an image that is not read. -/
  | refused
  deriving DecidableEq, Repr

/-- What gives the size of an image by the name and the contents of its file. -/
abbrev SizeProbe := Path → Bytes → Except HeaderError (Nat × Nat)

/-- The distances in a header are too short for a seek to fail, so that every
failed read has met the end of the data. -/
instance : MonadLift (Read ReadFailure) (Read HeaderError) where
  monadLift read := fun c =>
    match read c with
    | .ok a c => .ok a c
    | .error _ c => .error .cutShort c

namespace HeaderError

def require (condition : Bool) : Read HeaderError Unit :=
  if condition then return else throw refused

/-- A value that has to be there. -/
def demand : Option α → Read HeaderError α
  | some a => return a
  | none => throw refused

end HeaderError

end ImageDerivative
