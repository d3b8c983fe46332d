import ImageDerivative.Codec.Layout
import ImageDerivative.Codec.Zlib
import ImageDerivative.Container.Png

/-! Rasters as PNG. They are written with eight bits a sample, unfiltered and
uncompressed. Every depth and kind of pixel is read, as long as the image is not
interlaced and nothing in it is compressed. -/
namespace ImageDerivative.Png

def PixelKind.ofChannels : Nat → PixelKind
  | 1 => gray
  | 2 => grayAlpha
  | 3 => rgb
  | _ => rgba

/-- Each row behind the number of its filter, which is none. -/
def unfilteredRows (stride : Nat) (height : Nat) (samples : Bytes) : Bytes :=
  (List.range height).flatMap fun y => 0 :: (samples.drop (y * stride)).take stride

def headerOf (raster : Raster) : Header := {
  width := raster.width, height := raster.height, depth := 8
  pixelKind := .ofChannels raster.channels
  interlaced := false }

def maxAxis : Nat := 0x7FFFFFFF

/-- A raster without pixels has no PNG. -/
def encode? (raster : Raster) : Option Bytes :=
  if !raster.hasAxesUpTo maxAxis then none
  else
    let rows := unfilteredRows raster.stride raster.height raster.samples.toList
    let chunks : List Chunk := [
      ⟨headerKind, (headerOf raster).toBytes⟩, ⟨dataKind, Zlib.store rows⟩, ⟨endKind, []⟩]
    some (Format.pngSignature ++ chunks.flatMap Chunk.toBytes)

/-- Of the left, upper and upper left neighbor the one nearest to left + upper -
upper left; of equals the first. -/
def paeth (left up corner : UInt8) : UInt8 :=
  let estimate : Int := left.toNat + up.toNat - corner.toNat
  let distance := fun (neighbor : UInt8) => (estimate - neighbor.toNat).natAbs
  if distance left ≤ distance up ∧ distance left ≤ distance corner then left
  else if distance up ≤ distance corner then up
  else corner

/-- What a filter adds to a byte, from its neighbors. -/
def predict? (filter : UInt8) (left up corner : UInt8) : Option UInt8 :=
  match filter with
  | 0 => some 0
  | 1 => some left
  | 2 => some up
  | 3 => some (UInt8.ofNat ((left.toNat + up.toNat) / 2))
  | 4 => some (paeth left up corner)
  | _ => none

/-- The bytes of a row from its filtered form and the row above. The left neighbor
of a byte is `step` bytes before it. -/
def unfilterRow? (step : Nat) (filter : UInt8) (above : Array UInt8) (row : Bytes) :
    Option (Array UInt8) :=
  row.foldlM (fun done b => do
    let i := done.size
    let before := fun (bytes : Array UInt8) => if i < step then 0 else (bytes[i - step]?).getD 0
    let prediction ← predict? filter (before done) ((above[i]?).getD 0) (before above)
    return done.push (b + prediction)) #[]

/-- The rows of an image, each of `stride` bytes. -/
def unfilter? (step stride : Nat) : (height : Nat) → (above : Array UInt8) → Bytes →
    Option (List (Array UInt8))
  | 0, _, _ => some []
  | _ + 1, _, [] => none
  | height + 1, above, filter :: data => do
    if (data.take stride).length < stride then none
    let row ← unfilterRow? step filter above (data.take stride)
    return row :: (← unfilter? step stride height row (data.drop stride))

/-- The values of `depth` bits in a byte, the first in the highest bits. -/
def splitByte (depth : Nat) (b : UInt8) : List Nat :=
  (List.range (8 / depth)).map fun i => b.toNat / Nat.pow 2 (8 - depth * (i + 1)) % Nat.pow 2 depth

def values (depth : Nat) : Bytes → List Nat
  | [] => []
  | b :: rest =>
    if depth = 16 then
      match rest with
      | low :: rest => Bytes.ofBigEndian [b, low] :: values depth rest
      | [] => []
    else splitByte depth b ++ values depth rest

/-- A value of `depth` bits on the scale of eight, to the nearest. -/
def toEightBits (depth value : Nat) : UInt8 :=
  if depth = 16 then UInt8.ofNat ((value + 128) / 257)
  else UInt8.ofNat (value * 255 / (Nat.pow 2 depth - 1))

def colors : Bytes → List Bytes
  | red :: green :: blue :: rest => [red, green, blue] :: colors rest
  | _ => []

/-- What is not in the palette is black. -/
def black : Bytes := [0, 0, 0]

def rowSamples (header : Header) (palette : List Bytes) (row : Array UInt8) : Bytes :=
  let found := (values header.depth row.toList).take (header.width * header.pixelKind.samples)
  match header.pixelKind with
  | .palette => found.flatMap fun index => (palette[index]?).getD black
  | _ => found.map (toEightBits header.depth)

def PixelKind.channels : PixelKind → Nat
  | palette => 3
  | kind => kind.samples

/-- Colors that are transparent by being listed are not supported. -/
def transparencyKind : Bytes := Bytes.ofText "tRNS"

def paletteKind : Bytes := Bytes.ofText "PLTE"

def contentOf (kind : Bytes) (chunks : List Chunk) : Bytes :=
  (chunks.filter fun chunk => chunk.kind = kind).flatMap Chunk.content

structure Parts where
  header : Header
  /-- The chunks between the header and the image data. -/
  before : List Chunk
  /-- The compressed image. -/
  stream : Bytes

/-- The rest of the chunks with image data. They end where another chunk begins. -/
def readData (start : ChunkStart) : Read HeaderError Bytes :=
  Read.walk (fun (start, before) => do
    let chunk ← start.readRest
    let next ← ChunkStart.read
    let contents := chunk.content :: before
    return if next.kind = dataKind then .inl (next, contents) else .inr contents.reverse.flatten)
    .cutShort (start, ([] : List Bytes))

def readParts : Read HeaderError Parts := do
  let header ← readHeader
  let (before, start) ← readToData
  return { header, before, stream := ← readData start }

/-- The samples of an image. One that needs a palette has to have it. -/
def samples? (parts : Parts) : Option Bytes := do
  let header := parts.header
  let palette := colors (contentOf paletteKind parts.before)
  if header.interlaced || (parts.before.any fun chunk => chunk.kind = transparencyKind) ||
      (header.pixelKind = .palette && palette.isEmpty) then none
  let content ← Zlib.content? parts.stream
  let bits := header.pixelKind.samples * header.depth
  let rows ← unfilter? (max 1 (bits / 8)) ((header.width * bits + 7) / 8) header.height #[] content
  return rows.flatMap (rowSamples header palette)

def decode? (data : Bytes) : Option Raster :=
  match (readParts.onBytes data).1 with
  | .error _ => none
  | .ok parts => do
    let header := parts.header
    let samples ← samples? parts
    Raster.ofSamples? header.width header.height header.pixelKind.channels samples.toArray

end ImageDerivative.Png
