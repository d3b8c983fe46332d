import ImageDerivative.Codec.Layout
import ImageDerivative.Container.WebP

/-! WebP as a store of samples: the structure of a lossless file, with the samples
uncoded in the place of the compressed image. What is written this way can be
read back; images that are really compressed cannot. -/
namespace ImageDerivative.WebP

def maxAxis : Nat := axisRange

/-- The size and whether there is alpha, as a lossless image begins. -/
def losslessFields (bitmap : Bitmap) : Nat :=
  (bitmap.width - 1) + (bitmap.height - 1) * axisRange +
    (if bitmap.hasAlpha then axisRange * axisRange else 0)

def chunk (kind : String) (content : Bytes) : Bytes :=
  Bytes.ofText kind ++ Bytes.toLittleEndian 4 content.length ++ content ++
    (if content.length % 2 = 1 then [0] else [])

def encodeColor? (bitmap : Bitmap) : Option Bytes :=
  if !bitmap.hasAxesUpTo maxAxis then none
  else
    let fields := Bytes.toLittleEndian 4 (losslessFields bitmap)
    let image := chunk "VP8L" (losslessMark :: (fields ++ bitmap.samples.toList))
    some (chunk "RIFF" (Bytes.ofText "WEBP" ++ image))

/-- Gray is written as RGBA. -/
def encode? (raster : Raster) : Option Bytes :=
  if raster.channels < 3 then raster.toRgba.toOption.bind encodeColor? else encodeColor? raster.toBitmap

def readRaster : Read HeaderError (Option Raster) := do
  let riff ← ChunkStart.read
  let kind ← Read.field 4
  let image ← ChunkStart.read
  unless riff.isOf "RIFF" ∧ kind = Bytes.ofText "WEBP" ∧ image.isOf "VP8L" do return none
  let mark ← Read.byte
  unless mark = losslessMark do return none
  let fields ← Read.littleEndian 4
  let (width, height) := (fields % axisRange + 1, fields / axisRange % axisRange + 1)
  let channels := if fields / (axisRange * axisRange) % 2 = 1 then 4 else 3
  let samples ← Read.run (width * height * channels)
  return Raster.ofSamples? width height channels samples.toArray

def decode? (data : Bytes) : Option Raster := (readRaster.onBytes data).1.toOption.join

end ImageDerivative.WebP
