import ImageDerivative.Cursor

/-! Why the metadata of a container could not be read. -/
namespace ImageDerivative

inductive Defect where
  /-- Another byte stands where a marker begins. -/
  | notMarker (found : UInt8)
  /-- A segment length that does not cover its own two bytes. -/
  | segmentLength (length : Nat)
  | frameTooShort
  /-- A box length that does not cover the box header. -/
  | boxLength (length : Nat)
  | extendedBoxLength
  | uuidBoxTooShort
  | sizeTooShort (length : Nat)
  | codingTooShort
  | componentCodingTooShort
  /-- The header does not give the size of the image. -/
  | noDimensions
  deriving DecidableEq, Repr

def Defect.message : Defect → String
  | notMarker found => "expected marker, found " ++ Bytes.toUpperHex [found]
  | segmentLength length => s!"segment length {length}"
  | frameTooShort => "SOF segment too short"
  | boxLength length => s!"box length {length}"
  | extendedBoxLength => "XLBox shorter than its header"
  | uuidBoxTooShort => "uuid box shorter than its UUID"
  | sizeTooShort length => s!"SIZ segment of {length} bytes"
  | codingTooShort => "COD segment too short"
  | componentCodingTooShort => "COC segment too short"
  | noDimensions => "no dimensions"

inductive MetadataError where
  | sourceNotSet
  | invalidSignature (format : String) (found : Bytes)
  | invalidVersion (format : String) (found : Bytes)
  | malformed (format : String) (defect : Defect)
  | io (failure : ReadFailure)
  deriving DecidableEq, Repr

namespace MetadataError

/-- The stream ended in the middle of a field. -/
def isTruncation : MetadataError → Bool
  | io failure => failure.isTruncation
  | _ => false

def message : MetadataError → String
  | sourceNotSet => "Source not set"
  | invalidSignature format found =>
    "Invalid signature: " ++ found.toUpperHex ++ " (is this a " ++ format ++ "?)"
  | invalidVersion format found =>
    "Invalid " ++ format ++ " version: " ++ found.toUpperHex
  | malformed format defect => "Malformed " ++ format ++ " data: " ++ defect.message
  | io failure => "IO error: " ++ failure.message

end MetadataError

instance : MonadLift (Read ReadFailure) (Read MetadataError) where
  monadLift read := fun c =>
    match read c with
    | .ok a c => .ok a c
    | .error failure c => .error (.io failure) c

end ImageDerivative
