import ImageDerivative.Container.Header
import ImageDerivative.Container.Tiff

/-! The first directory of a TIFF file and the image that it describes. Files whose
offsets take eight bytes are read as well. -/
namespace ImageDerivative.Tiff

open HeaderError

/-- How the numbers of a file are written. -/
structure Layout where
  order : Order
  /-- The width of counts and offsets, and of the value that an entry has room for. -/
  offsetWidth : Nat
  deriving DecidableEq, Repr

namespace Layout

def number (layout : Layout) (width : Nat) : Read HeaderError Nat :=
  return layout.order.number (← Read.field width)

def offset (layout : Layout) : Read HeaderError Nat := layout.number layout.offsetWidth

def entryCount (layout : Layout) : Read HeaderError Nat :=
  layout.number (if layout.offsetWidth = 8 then 8 else 2)

/-- The first two bytes tell the order; less than two tell nothing. -/
def readOrder : Read HeaderError Order := do
  match (← get).rest.take 2 with
  | [0x49, 0x49] =>
    Read.skip 2
    return .little
  | [0x4D, 0x4D] =>
    Read.skip 2
    return .big
  | _ => throw .refused

/-- The header before the offset of the first directory. -/
def read : Read HeaderError Layout := do
  let order ← readOrder
  let narrow : Layout := ⟨order, 4⟩
  let version ← narrow.number 2
  if version = 42 then return narrow
  require (version = 43)
  let offsetWidth ← narrow.number 2
  require (offsetWidth = 8)
  let reserved ← narrow.number 2
  require (reserved = 0)
  return ⟨order, offsetWidth⟩

end Layout

def unitLength? : (type : Nat) → Option Nat
  | 1 | 2 | 6 | 7 => some 1
  | 3 | 8 => some 2
  | 4 | 9 | 11 | 13 => some 4
  | 5 | 10 | 12 | 16 | 17 | 18 => some 8
  | _ => none

/-- The types whose units are natural numbers. -/
def naturalTypes : List Nat := [1, 3, 4, 7, 13, 16, 18]

structure Entry where
  tag : Nat
  type : Nat
  count : Nat
  /-- The value, if it fits, else its offset. -/
  field : Bytes
  deriving DecidableEq, Repr

/-- The numbers that the units of a value are. -/
def numbersOf (order : Order) (unit : Nat) : (count : Nat) → Bytes → List Nat
  | 0, _ => []
  | count + 1, bytes =>
    order.number (bytes.take unit) :: numbersOf order unit count (bytes.drop unit)

namespace Entry

/-- Values of more units are refused. -/
def maxCount : Nat := 0x800000

def read (layout : Layout) : Read HeaderError Entry := do
  let tag ← layout.number 2
  let type ← layout.number 2
  let count ← layout.offset
  return ⟨tag, type, count, ← Read.field layout.offsetWidth⟩

/-- The numbers of a value, which may stand elsewhere in the file. -/
def readNumbers (layout : Layout) (entry : Entry) : Read HeaderError (List Nat) := do
  let unit ← demand (unitLength? entry.type)
  require (entry.count ≤ maxCount)
  let length := entry.count * unit
  let value ←
    if length ≤ layout.offsetWidth then pure (entry.field.take length)
    else
      modify fun c => c.seek (layout.order.number entry.field)
      Read.run length
  require (naturalTypes.contains entry.type)
  return numbersOf layout.order unit entry.count value

end Entry

structure Directory where
  layout : Layout
  entries : List Entry
  deriving DecidableEq, Repr

def readEntries (layout : Layout) : (count : Nat) → Read HeaderError (List Entry)
  | 0 => return []
  | count + 1 => do
    let entry ← Entry.read layout
    return entry :: (← readEntries layout count)

namespace Directory

/-- The first directory. Behind it stands the offset of the next one, which is
another or none. Entries of unknown types are left out. -/
def read : Read HeaderError Directory := do
  let layout ← Layout.read
  let place ← layout.offset
  modify fun c => c.seek place
  let entries ← readEntries layout (← layout.entryCount)
  let next ← layout.offset
  require (next = 0 || next ≠ place)
  return { layout, entries := entries.filter fun entry => (unitLength? entry.type).isSome }

/-- The entry of a tag; of several the last one. -/
def find? (directory : Directory) (tag : Nat) : Option Entry :=
  directory.entries.reverse.find? fun entry => entry.tag = tag

def has (directory : Directory) (tag : Nat) : Bool := (directory.find? tag).isSome

/-- The numbers under a tag that may be missing. Each is below `limit`. -/
def numbers? (directory : Directory) (tag limit : Nat) : Read HeaderError (Option (List Nat)) := do
  match directory.find? tag with
  | none => return none
  | some entry =>
    let numbers ← entry.readNumbers directory.layout
    require (numbers.all fun n => n < limit)
    return some numbers

/-- The one number under a tag that may be missing. -/
def number? (directory : Directory) (tag limit : Nat) : Read HeaderError (Option Nat) := do
  match ← directory.numbers? tag limit with
  | none => return none
  | some [n] => return some n
  | some _ => throw .refused

/-- The numbers under a tag that has to be there. -/
def numbers (directory : Directory) (tag : Nat) : Read HeaderError (List Nat) := do
  demand (← directory.numbers? tag 0x10000000000000000)

def shortLimit : Nat := 0x10000

def longLimit : Nat := 0x100000000

/-- A short number that has a default. -/
def short (directory : Directory) (tag default : Nat) : Read HeaderError Nat :=
  return (← directory.number? tag shortLimit).getD default

/-- A long number that has to be there. -/
def long (directory : Directory) (tag : Nat) : Read HeaderError Nat := do
  demand (← directory.number? tag longLimit)

end Directory

def widthTag : Nat := 256
def heightTag : Nat := 257
def depthTag : Nat := 258
def compressionTag : Nat := 259
def photometricTag : Nat := 262
def stripOffsetTag : Nat := 273
def samplesTag : Nat := 277
def rowsTag : Nat := 278
def stripLengthTag : Nat := 279
def planesTag : Nat := 284
def predictorTag : Nat := 317
def tileWidthTag : Nat := 322
def tileHeightTag : Nat := 323
def tileOffsetTag : Nat := 324
def tileLengthTag : Nat := 325
def sampleFormatTag : Nat := 339

/-- What a directory says about the samples of a pixel. -/
structure Samples where
  count : Nat
  /-- The bits of a sample. -/
  depth : Nat
  /-- How the bits are to be understood, if that is said: 1 as natural numbers, 3 as
  binary fractions. -/
  format : Option Nat
  /-- Every kind of sample has a plane of its own. -/
  planar : Bool
  deriving DecidableEq, Repr

namespace Samples

/-- All samples are of one format and one depth. -/
def read (directory : Directory) : Read HeaderError Samples := do
  let count ← directory.short samplesTag 1
  require (count ≠ 0)
  let formats := (← directory.numbers? sampleFormatTag Directory.shortLimit).getD [1]
  require (formats ≠ [] && formats.all fun format => formats.head? = some format)
  let depths := (← directory.numbers? depthTag 256).getD [1]
  require (depths.length = count || depths.length = 1)
  require (depths.all fun depth => depths.head? = some depth)
  let predictor ← directory.short predictorTag 1
  require (1 ≤ predictor && predictor ≤ 3)
  let planes ← directory.short planesTag 1
  require (planes = 1 || planes = 2)
  return {
    count, depth := depths.headD 1, planar := planes = 2
    format := if directory.has sampleFormatTag then formats.head? else none }

def isReadable (samples : Samples) : Bool :=
  match samples.format with
  | none => true
  | some 1 => samples.depth ≤ 16
  | some 3 => samples.depth = 32
  | some _ => false

end Samples

/-- An image is stored in strips or in tiles; `offsets` and `lengths` tell where. -/
structure Image where
  width : Nat
  height : Nat
  photometric : Nat
  compression : Nat
  samples : Samples
  offsets : List Nat
  lengths : List Nat
  deriving DecidableEq, Repr

namespace Image

/-- How many strips or tiles one plane takes. -/
def readPieceCount (directory : Directory) (width height : Nat) : Read HeaderError Nat := do
  if directory.has stripOffsetTag then
    let rows := (← directory.number? rowsTag Directory.longLimit).getD height
    require (rows ≠ 0)
    return (height - 1) / rows + 1
  else
    let tileWidth ← directory.long tileWidthTag
    let tileHeight ← directory.long tileHeightTag
    require (tileWidth ≠ 0 && tileHeight ≠ 0)
    return ((width - 1) / tileWidth + 1) * ((height - 1) / tileHeight + 1)

/-- Which tags tell where the image is stored: those of strips or those of tiles. -/
def storageTags? (directory : Directory) : Option (Nat × Nat) :=
  match directory.has stripLengthTag, directory.has stripOffsetTag,
    directory.has tileLengthTag, directory.has tileOffsetTag with
  | true, true, false, false => some (stripOffsetTag, stripLengthTag)
  | false, false, true, true => some (tileOffsetTag, tileLengthTag)
  | _, _, _, _ => none

def read (directory : Directory) : Read HeaderError Image := do
  let width ← directory.long widthTag
  let height ← directory.long heightTag
  require (width ≠ 0 && height ≠ 0)
  let photometric ← demand (← directory.number? photometricTag Directory.shortLimit)
  let compression ← directory.short compressionTag 1
  let samples ← Samples.read directory
  let (offsetTag, lengthTag) ← demand (storageTags? directory)
  let offsets ← directory.numbers offsetTag
  let lengths ← directory.numbers lengthTag
  let pieces ← readPieceCount directory width height
  let planes := if samples.planar then samples.count else 1
  require (offsets.length = lengths.length && offsets.length = pieces * planes)
  return { width, height, photometric, compression, samples, offsets, lengths }

/-- Gray, RGB and CMYK are read in these depths; RGB may have a fourth sample. -/
def isReadable (image : Image) : Bool :=
  let depth := image.samples.depth
  image.samples.isReadable &&
    match image.photometric, image.samples.count with
    | 0, 1 | 1, 1 => depth = 1 || depth = 8 || depth = 16
    | 2, 3 | 2, 4 => depth = 8 || depth = 16 || depth = 32
    | 5, 4 => depth = 8 || depth = 16
    | _, _ => false

end Image

def readImage : Read HeaderError Image := do
  let image ← Image.read (← Directory.read)
  require image.isReadable
  return image

def readSize : Read HeaderError (Nat × Nat) := do
  let image ← readImage
  return (image.width, image.height)

end ImageDerivative.Tiff
