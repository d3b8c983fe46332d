import ImageDerivative.Codec.Layout
import ImageDerivative.Container.Jpeg

/-! JPEG as a store of samples: a baseline frame and a scan, with the samples uncoded
in the place of the compressed image. What is written this way can be read back;
images that are really compressed cannot. -/
namespace ImageDerivative.Jpeg

def maxAxis : Nat := 0xFFFF

/-- A marker with the segment behind it, whose length covers its own two bytes. -/
def segment (marker : UInt8) (content : Bytes) : Bytes :=
  [0xFF, marker] ++ Bytes.toBigEndian 2 (content.length + 2) ++ content

/-- The frame of a baseline image; no component is subsampled. -/
def frame (bitmap : Bitmap) : Bytes :=
  [8] ++ Bytes.toBigEndian 2 bitmap.height ++ Bytes.toBigEndian 2 bitmap.width ++
    UInt8.ofNat bitmap.channels ::
      (List.range bitmap.channels).flatMap fun k => [UInt8.ofNat (k + 1), 0x11, 0]

def scan (bitmap : Bitmap) : Bytes :=
  UInt8.ofNat bitmap.channels ::
    ((List.range bitmap.channels).flatMap fun k => [UInt8.ofNat (k + 1), 0]) ++ [0, 63, 0]

def encodeColor? (bitmap : Bitmap) : Option Bytes :=
  if !bitmap.hasAxesUpTo maxAxis then none
  else some ([0xFF, 0xD8] ++ segment 0xC0 (frame bitmap) ++ segment 0xDA (scan bitmap) ++
    bitmap.samples.toList ++ [0xFF, 0xD9])

/-- There is no alpha in the format. -/
def encode? (raster : Raster) : Option Bytes := raster.dropAlpha.toOption.bind encodeColor?

def readRaster : Read MetadataError (Option Raster) := do
  unless (← Read.field 4) = [0xFF, 0xD8, 0xFF, 0xC0] do return none
  Read.skip 3
  let height ← Read.bigEndian 2
  let width ← Read.bigEndian 2
  let channels := (← Read.byte).toNat
  Read.skip (3 * channels)
  unless (← Read.field 2) = [0xFF, 0xDA] do return none
  Read.skip (6 + 2 * channels)
  let samples ← Read.run (width * height * channels)
  unless (← Read.field 2) = [0xFF, 0xD9] do return none
  return Raster.ofSamples? width height channels samples.toArray

def decode? (data : Bytes) : Option Raster := (readRaster.onBytes data).1.toOption.join

end ImageDerivative.Jpeg
