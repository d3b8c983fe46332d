import ImageDerivative.Codec.Layout
import ImageDerivative.Container.TiffHeader

/-! Rasters as TIFF: one uncompressed strip of eight bits a sample. Gray with
alpha is not written. -/
namespace ImageDerivative.Tiff

def extraSamplesTag : Nat := 338

def shortType : Nat := 3
def longType : Nat := 4

def Entry.toBytes (entry : Entry) : Bytes :=
  Bytes.toLittleEndian 2 entry.tag ++ Bytes.toLittleEndian 2 entry.type ++
    Bytes.toLittleEndian 4 entry.count ++ entry.field

def Entry.ofNumber (type tag n : Nat) : Entry := ⟨tag, type, 1, Bytes.toLittleEndian 4 n⟩

/-- The depth of each sample. Up to two depths fit into the entry; more stand
behind the directory. -/
def depthEntry (channels offset : Nat) : Entry :=
  if channels = 1 then .ofNumber shortType depthTag 8
  else ⟨depthTag, shortType, channels, Bytes.toLittleEndian 4 offset⟩

/-- The entries for a raster whose depths stand at `offset`, before its samples. -/
def entriesOf (raster : Raster) (offset : Nat) : List Entry := [
  .ofNumber longType widthTag raster.width,
  .ofNumber longType heightTag raster.height,
  depthEntry raster.channels offset,
  .ofNumber shortType compressionTag 1,
  .ofNumber shortType photometricTag (if raster.channels < 3 then 1 else 2),
  .ofNumber longType stripOffsetTag (offset + 2 * raster.channels),
  .ofNumber shortType samplesTag raster.channels,
  .ofNumber longType rowsTag raster.height,
  .ofNumber longType stripLengthTag raster.samples.size] ++
  if raster.channels = 4 then [.ofNumber shortType extraSamplesTag 2] else []

def maxAxis : Nat := 0xFFFFFFFF

def directoryEnd (entries : Nat) : Nat := 8 + 2 + 12 * entries + 4

def encode? (raster : Raster) : Option Bytes :=
  if raster.channels = 2 ∨ !raster.hasAxesUpTo maxAxis then none
  else
    let entries := entriesOf raster (directoryEnd (entriesOf raster 0).length)
    some (Bytes.ofText "II" ++ Bytes.toLittleEndian 2 42 ++ Bytes.toLittleEndian 4 8 ++
      Bytes.toLittleEndian 2 entries.length ++ entries.flatMap Entry.toBytes ++
      Bytes.toLittleEndian 4 0 ++
      (List.replicate raster.channels (Bytes.toLittleEndian 2 8)).flatten ++
      raster.samples.toList)

/-- The image of the first directory, if it is stored uncompressed in one strip of
a byte for each sample, and its zero is black. -/
def readRaster : Read HeaderError (Option Raster) := do
  let image ← readImage
  let channels := image.samples.count
  let length := image.width * image.height * channels
  match image.offsets with
  | [offset] =>
    let known := image.compression = 1 ∧ image.lengths = [length] ∧ image.samples.depth = 8 ∧
      (image.photometric = 1 ∨ image.photometric = 2)
    if !known then return none
    modify fun c => c.seek offset
    let samples ← Read.run length
    return Raster.ofSamples? image.width image.height channels samples.toArray
  | _ => return none

def decode? (data : Bytes) : Option Raster := (readRaster.onBytes data).1.toOption.join

end ImageDerivative.Tiff
