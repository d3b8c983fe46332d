import ImageDerivative.Imaging.Error

/-! Pixel grids: eight bits a sample, rows from top to bottom, the channels of a
pixel side by side. Gray, gray with alpha, RGB and RGBA have one to four channels;
alpha is always the last.

The number of samples is a product in a machine word, which is cut to the word as in a
build without overflow checks. A bitmap has as many samples as that product says; a
raster has as many as its size does. They differ from 2^64 samples on. -/
namespace ImageDerivative

/-- How an encoder is to understand the sample values. Resampling never looks at it. -/
inductive Interpretation where
  | gamma
  | linear
  deriving DecidableEq, Repr, Inhabited

def Interpretation.ofLinear (linear : Bool) : Interpretation := if linear then .linear else .gamma

structure Bitmap where
  width : Nat
  height : Nat
  channels : Nat
  interpretation : Interpretation
  samples : Array UInt8
  channels_valid : 1 ≤ channels ∧ channels ≤ 4
  deriving DecidableEq

namespace Bitmap

/-- How far a machine word counts. -/
def wordSize : Nat := 0x10000000000000000

/-- The length of the longest buffer there can be. -/
def maxLength : Nat := 0x7fffffffffffffff

/-- A buffer can hold all samples of a grid. -/
def Fits (width height channels : Nat) : Prop := width * height * channels ≤ maxLength

instance (width height channels : Nat) : Decidable (Fits width height channels) :=
  inferInstanceAs (Decidable (_ ≤ _))

/-- The number of samples of a grid, cut to a machine word. -/
def bufferLength (width height channels : Nat) : Nat := width * height * channels % wordSize

def checkChannels (channels : Nat) : Except ResampleError (PLift (1 ≤ channels ∧ channels ≤ 4)) :=
  if valid : 1 ≤ channels ∧ channels ≤ 4 then .ok ⟨valid⟩ else .error (.channelCount channels)

def ofSamples (width height channels : Nat) (samples : Array UInt8) :
    Except ResampleError Bitmap := do
  let ⟨channels_valid⟩ ← checkChannels channels
  let expected := bufferLength width height channels
  if samples.size = expected then
    return { width, height, channels, interpretation := .gamma, samples, channels_valid }
  else throw (.bufferLength samples.size width height channels expected)

def zeros (length : Nat) : Except RasterFault (Array UInt8) :=
  if length ≤ maxLength then .ok (Array.replicate length 0) else .error (.panicked .capacity)

def blank (width height channels : Nat) : Except RasterFault Bitmap := do
  let _ ← (checkChannels channels).mapError .refused
  let samples ← zeros (bufferLength width height channels)
  (ofSamples width height channels samples).mapError .refused

/-- The bitmap whose pixel at `(x, y)` is `pixel x y`. The buffer grows pixel by pixel, and
panics when it would get too long. -/
def ofPixels (width height channels : Nat) (pixel : Nat → Nat → Vector UInt8 channels) :
    Except RasterFault Bitmap := do
  if channels > 255 then throw (.refused (.channelOverflow channels))
  let _ ← (checkChannels channels).mapError .refused
  unless Fits width height channels do throw (.panicked .capacity)
  let row := fun y => (List.range width).flatMap fun x => (pixel x y).toList
  (ofSamples width height channels ((List.range height).flatMap row).toArray).mapError .refused

def withInterpretation (bitmap : Bitmap) (interpretation : Interpretation) : Bitmap :=
  { bitmap with interpretation }

def dimensions (bitmap : Bitmap) : Nat × Nat := (bitmap.width, bitmap.height)

def hasAlpha (bitmap : Bitmap) : Bool := bitmap.channels = 2 || bitmap.channels = 4

def colorChannels (bitmap : Bitmap) : Nat :=
  if bitmap.hasAlpha then bitmap.channels - 1 else bitmap.channels

def stride (bitmap : Bitmap) : Nat := bitmap.width * bitmap.channels

/-- `count` samples from `start` on, if they are all there. -/
def slice? (bitmap : Bitmap) (start count : Nat) : Option (Array UInt8) :=
  if start + count ≤ bitmap.samples.size then some (bitmap.samples.extract start (start + count))
  else none

def row? (bitmap : Bitmap) (y : Nat) : Option (Array UInt8) :=
  bitmap.slice? (y * bitmap.stride % wordSize) bitmap.stride

def pixel? (bitmap : Bitmap) (x y : Nat) : Option (Array UInt8) :=
  bitmap.slice? ((y * bitmap.width + x) * bitmap.channels % wordSize) bitmap.channels

/-- What a pass reads of a row: no pass asks for one that the buffer does not hold. -/
def rowAt (bitmap : Bitmap) (y : Nat) : Array UInt8 :=
  bitmap.samples.extract (y * bitmap.stride) (y * bitmap.stride + bitmap.stride)

/-- The samples as a vector of rows laid end to end. -/
def toVector (bitmap : Bitmap) : Vector UInt8 bitmap.samples.size := ⟨bitmap.samples, rfl⟩

def withSamples (bitmap : Bitmap) (samples : Vector UInt8 bitmap.samples.size) : Bitmap :=
  { bitmap with samples := samples.toArray }

end Bitmap

/-- A bitmap that has all samples of its size. -/
structure Raster extends Bitmap where
  size_eq : samples.size = width * height * channels
  deriving DecidableEq

/-- The bitmap as a raster, if none of its samples is missing. -/
def Bitmap.whole? (bitmap : Bitmap) : Option Raster :=
  if size_eq : bitmap.samples.size = bitmap.width * bitmap.height * bitmap.channels then
    some { bitmap with size_eq }
  else none

namespace Raster

def ofSamples? (width height channels : Nat) (samples : Array UInt8) : Option Raster :=
  (Bitmap.ofSamples width height channels samples).toOption.bind Bitmap.whole?

def zeros (width height : Nat) {channels : Nat} (channels_valid : 1 ≤ channels ∧ channels ≤ 4)
    (interpretation : Interpretation) : Raster where
  width
  height
  channels
  interpretation
  samples := Array.replicate (width * height * channels) 0
  channels_valid
  size_eq := Array.size_replicate

def withInterpretation (raster : Raster) (interpretation : Interpretation) : Raster :=
  { raster with interpretation }

def withSamples (raster : Raster) (samples : Vector UInt8 raster.samples.size) : Raster :=
  { raster with
    samples := samples.toArray
    size_eq := samples.size_toArray.trans raster.size_eq }

end Raster

end ImageDerivative
