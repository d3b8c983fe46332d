import ImageDerivative.Codec.Layout
import ImageDerivative.Container.Gif

/-! GIF as a store of samples: one image that fills the screen, with RGBA samples uncoded
in its blocks in the place of compressed indices. What is written this way can be
read back; images that are really compressed cannot. -/
namespace ImageDerivative.Gif

def maxAxis : Nat := 0xFFFF

def maxSubBlock : Nat := 255

/-- Counted blocks, closed by the empty one. -/
def subBlocks (data : Bytes) : Bytes :=
  match data with
  | [] => [0]
  | b :: rest =>
    let piece := (b :: rest).take maxSubBlock
    UInt8.ofNat piece.length :: (piece ++ subBlocks ((b :: rest).drop maxSubBlock))
termination_by data.length
decreasing_by
  rw [List.length_drop]
  simp only [List.length_cons, maxSubBlock]
  omega

def axes (bitmap : Bitmap) : Bytes :=
  Bytes.toLittleEndian 2 bitmap.width ++ Bytes.toLittleEndian 2 bitmap.height

/-- One image that fills the screen, without color tables. -/
def encodeColor? (bitmap : Bitmap) : Option Bytes :=
  if !bitmap.hasAxesUpTo maxAxis then none
  else some (Bytes.ofText "GIF89a" ++ axes bitmap ++ [0, 0, 0] ++
    [0x2C, 0, 0, 0, 0] ++ axes bitmap ++ [0, 8] ++ subBlocks bitmap.samples.toList ++ [0x3B])

/-- Every image is written as RGBA. -/
def encode? (raster : Raster) : Option Bytes := raster.toRgba.toOption.bind encodeColor?

def readSubBlocks : Read ReadFailure Bytes :=
  Read.walk (fun before => do
    let length ← Read.byte
    if length = 0 then return .inr before.reverse.flatten
    return .inl ((← Read.run length.toNat) :: before)) .stalled []

def readRaster : Read MetadataError (Option Raster) := do
  let header ← readHeader
  let descriptor ← Read.field 11
  unless descriptor.head? = some 0x2C ∧ header.colorTableLength = none do return none
  let samples ← readSubBlocks
  return Raster.ofSamples? header.width header.height 4 samples.toArray

def decode? (data : Bytes) : Option Raster := (readRaster.onBytes data).1.toOption.join

end ImageDerivative.Gif
