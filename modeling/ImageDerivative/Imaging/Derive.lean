import ImageDerivative.Container.Error
import ImageDerivative.Files.Tree
import ImageDerivative.Imaging.Recipe
import ImageDerivative.Imaging.Resampling

/-! Making a derivative: decode, scale, sharpen, encode. Decoding and encoding are
left to a backend, whose operations act on a state of its own. -/
namespace ImageDerivative

inductive ProcessingFault where
  | unsupportedOutput (extension : String)
  | undecodable (path : Path)
  | unencodable (format : String)
  | noDimensions
  /-- A backend's own words. -/
  | refused (reason : String)
  deriving DecidableEq, Repr

def ProcessingFault.message : ProcessingFault → String
  | unsupportedOutput extension => "Unsupported output format: " ++ extension
  | undecodable path => "Failed to decode " ++ path
  | unencodable format => format ++ " encode failed"
  | noDimensions => "Failed to read dimensions"
  | refused reason => reason

inductive BackendError where
  | io (failure : IoFailure)
  | resample (error : ResampleError)
  | metadata (error : MetadataError)
  | processing (fault : ProcessingFault)
  /-- Not an error that is returned: the thread that was at work panicked. -/
  | panicked (panic : Panic)
  deriving DecidableEq, Repr

namespace BackendError

def message : BackendError → String
  | io failure => "IO error: " ++ failure.kind
  | resample error => error.message
  | metadata error => error.message
  | processing fault => "Processing failed: " ++ fault.message
  | panicked (.text message) => message
  | panicked .other => "panic"

def ofRaster : RasterFault → BackendError
  | .refused error => .resample error
  | .panicked panic => .panicked panic

end BackendError

/-- Codecs that act on a state `σ`. -/
structure Backend (σ : Type) where
  identify : Path → EStateM BackendError σ Size
  decode : Path → EStateM BackendError σ Raster
  encode : Bitmap → Path → Quality → EStateM BackendError σ Unit

structure Derivative where
  sourceSize : Size
  size : Size
  channels : Nat
  kernel : Kernel
  deriving DecidableEq, Repr

/-- Too small on an axis for the kernels to work with. -/
def tooSmall (size : Size) : Bool :=
  size.1 < ResampleError.minTarget || size.2 < ResampleError.minTarget

/-- Scales to a target. Where source or target is too small the result is blank;
a raster that has the size already is left as it is. -/
def scale (source : Raster) (target : Size) (kernel : Kernel) (linear : Bool) (pool : WorkerPool) :
    Except RasterFault Bitmap := do
  if tooSmall source.dimensions || tooSmall target then
    let blank ← Bitmap.blank target.1 target.2 source.channels
    return blank.withInterpretation (.ofLinear linear)
  else if source.dimensions = target then return source.toBitmap
  else
    let op : Resampling Float32 :=
      { width := target.1, height := target.2, kernel, linear, unsharp := 0.0 }
    let resampled ← (op.run source none pool).mapError .refused
    return resampled.toBitmap

/-- Applies an unsharp mask, unless it has no effect or the bitmap is two pixels
or less on an axis. -/
def sharpen (bitmap : Bitmap) (amount : Float32) (pool : WorkerPool) :
    Except RasterFault Bitmap := do
  let mask := UnsharpMask.ofAmount amount
  if !mask.hasEffect || bitmap.width ≤ 2 || bitmap.height ≤ 2 then return bitmap
  else
    let samples ← (mask.samplesOf bitmap pool 2).mapError .refused
    return bitmap.withSamples samples

/-- Lets a fault of the pixel work stand as a failure of the derivation. -/
def liftRaster {σ α : Type} : Except RasterFault α → EStateM BackendError σ α
  | .ok a => return a
  | .error fault => throw (.ofRaster fault)

def derive {σ : Type} (backend : Backend σ) (recipe : Recipe) (pool : WorkerPool) :
    EStateM BackendError σ Derivative := do
  let source ← backend.decode recipe.source
  let target := resultingSize source.dimensions recipe.mode
  let kernel := chooseKernel recipe.kernel source.dimensions target recipe.policy
  let scaled ← liftRaster (scale source target kernel recipe.linear pool)
  let out ← liftRaster (sharpen scaled recipe.sharpen.toFloat pool)
  backend.encode out recipe.output recipe.quality
  return {
    sourceSize := source.dimensions, size := out.dimensions, channels := out.channels, kernel }

end ImageDerivative
