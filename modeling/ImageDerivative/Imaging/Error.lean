/-! Why an operation on rasters was refused or failed. -/
namespace ImageDerivative

/-- What a thread panicked with. -/
inductive Panic where
  | text (message : String)
  /-- A value that is no text. -/
  | other
  deriving DecidableEq, Repr

/-- More was asked for than a buffer can hold. -/
def Panic.capacity : Panic := .text "capacity overflow"

inductive ResampleError where
  | bufferLength (length width height channels expected : Nat)
  | channelCount (channels : Nat)
  /-- More channels than a byte can count. -/
  | channelOverflow (channels : Nat)
  | partialRow (length rowLength : Nat)
  | targetTooSmall (width height : Nat)
  | emptySource (width height : Nat)
  | channelMismatch (source destination : Nat)
  | workerPanicked (panic : Panic)
  deriving DecidableEq, Repr

namespace ResampleError

def minTarget : Nat := 3

/-- The caller asked for something that cannot be done. -/
def isInvalidArgument : ResampleError → Bool
  | workerPanicked _ => false
  | _ => true

def reason : ResampleError → String
  | bufferLength length width height channels expected =>
    s!"buffer of {length} bytes does not match {width}x{height}x{channels} ({expected} bytes)"
  | channelCount channels => s!"unsupported channel count {channels} (expected 1-4)"
  | channelOverflow channels => s!"{channels} channels"
  | partialRow length rowLength =>
    s!"buffer of {length} bytes is not a whole number of {rowLength}-byte rows"
  | targetTooSmall width height =>
    s!"target size was {width}x{height} but must be at least {minTarget}x{minTarget}"
  | emptySource width height => s!"source image is {width}x{height}"
  | channelMismatch source destination =>
    s!"Source image has {source} channels; destination image has {destination} channels"
  | workerPanicked (.text message) => "worker panicked: " ++ message
  | workerPanicked .other => "worker panicked"

def message (e : ResampleError) : String :=
  (if e.isInvalidArgument then "Invalid argument: " else "Resampling failed: ") ++ e.reason

end ResampleError

/-- Why there is no raster: it was refused, or the thread that was to make it panicked. -/
inductive RasterFault where
  | refused (error : ResampleError)
  | panicked (panic : Panic)
  deriving DecidableEq, Repr

end ImageDerivative
