import ImageDerivative.Proofs.Container.Jp2Boxes

/-! The written form of JP2 streams: boxes of any type, then the box of the codestream,
whose main header is written segment by segment. A box may state its length in four
bytes or in eight, and the last one may leave it open. Contents are arbitrary, except
that segments and boxes which are looked into have room for what is read there. -/
namespace ImageDerivative.Jp2

inductive LengthForm where
  | short
  | extended
  /-- The box reaches the end of the stream. -/
  | toEnd
  deriving DecidableEq

namespace LengthForm

/-- A box with `count` bytes of contents can state its length. -/
def Fits : (form : LengthForm) → (count : Nat) → Prop
  | short, count => count + 8 < 0x100000000
  | extended, count => count + 16 < 0x10000000000000000
  | toEnd, _ => True

instance : (form : LengthForm) → (count : Nat) → Decidable (form.Fits count)
  | short, _ => Nat.decLt _ _
  | extended, _ => Nat.decLt _ _
  | toEnd, _ => isTrue trivial

/-- What stands in the four bytes at the start of the box. -/
def announced : (form : LengthForm) → (count : Nat) → Nat
  | short, count => count + 8
  | extended, _ => 1
  | toEnd, _ => 0

/-- What stands behind the type. -/
def extension : (form : LengthForm) → (count : Nat) → Bytes
  | extended, count => Bytes.toBigEndian 8 (count + 16)
  | _, _ => []

def header (form : LengthForm) (type : Bytes) (count : Nat) : Bytes :=
  Bytes.toBigEndian 4 (form.announced count) ++ (type ++ form.extension count)

end LengthForm

structure Item where
  form : LengthForm
  closed : form ≠ .toEnd := by decide
  type : Vector UInt8 4
  other : type.toList ≠ codestreamType := by decide
  payload : Bytes
  fits : form.Fits payload.length := by decide
  /-- No seek is longer. -/
  near : payload.length ≤ Read.maxSkip := by decide
  identified : type.toList = uuidType → 16 ≤ payload.length := by decide

namespace Item

def encode (item : Item) : Bytes :=
  item.form.header item.type.toList item.payload.length ++ item.payload

/-- What stands behind this identifier, if the box has it. -/
def kept? (uuid : Bytes) (item : Item) : Option Bytes :=
  if item.type.toList = uuidType ∧ item.payload.take 16 = uuid then some (item.payload.drop 16)
  else none

end Item

/-- The contents behind an identifier in the last box that has it. -/
def lastKept? (uuid : Bytes) (items : List Item) : Option Bytes :=
  (items.filterMap (Item.kept? uuid)).getLast?

/-- What stands around a codestream: the boxes before it, and the form of its own box. -/
structure Wrapping where
  items : List Item
  form : LengthForm

namespace Wrapping

def front (wrapping : Wrapping) (count : Nat) : Bytes :=
  Format.jp2Signature ++ wrapping.items.flatMap Item.encode ++
    wrapping.form.header codestreamType count

/-- A record with the metadata of the boxes. -/
def complete (wrapping : Wrapping) (record : Record) : Record :=
  { record with
    exif := lastKept? exifUuid wrapping.items
    iptc := lastKept? iptcUuid wrapping.items
    xmp := (lastKept? xmpUuid wrapping.items).bind Xmp.rdfOfBytes }

end Wrapping

structure SizeSegment where
  capabilities : Vector UInt8 2
  width : UInt32
  height : UInt32
  offset : Vector UInt8 8
  tileWidth : UInt32
  tileHeight : UInt32
  tileOffset : Vector UInt8 8
  components : UInt16
  /-- The depth of the first component, less one; the top bit marks signed samples. -/
  depth : UInt8
  /-- The sampling of that component, and all that is said of the others. -/
  rest : Bytes
  short : rest.length ≤ 65496 := by decide

def SizeSegment.encode (size : SizeSegment) : Bytes :=
  size.capabilities.toList ++ Bytes.toBigEndian 4 size.width.toNat ++
    Bytes.toBigEndian 4 size.height.toNat ++ size.offset.toList ++
    Bytes.toBigEndian 4 size.tileWidth.toNat ++ Bytes.toBigEndian 4 size.tileHeight.toNat ++
    size.tileOffset.toList ++ Bytes.toBigEndian 2 size.components.toNat ++ [size.depth] ++ size.rest

/-- The code of the segment that holds the number of decompositions. -/
def codingCode : UInt8 := 0x52

/-- The codes that have a meaning of their own: the start, a size, the coding of one
component, and what ends the main header. -/
def reservedCodes : List UInt8 := [0x4F, 0x51, 0x53, 0x90, 0x93, 0xD9]

structure Segment where
  code : UInt8
  plain : code ∉ reservedCodes := by decide
  payload : Bytes
  short : payload.length ≤ 65533 := by decide
  long : code = codingCode → 6 ≤ payload.length := by decide

namespace Segment

def encode (segment : Segment) : Bytes :=
  [0xFF, segment.code] ++ Bytes.toBigEndian 2 (segment.payload.length + 2) ++ segment.payload

def levels? (segment : Segment) : Option Nat :=
  if segment.code = codingCode then segment.payload[5]?.map UInt8.toNat else none

end Segment

/-- What ends a main header: the first tile, its data, or the end of the codestream. -/
inductive Closing where
  | tile
  | data
  | ending

def Closing.code : Closing → UInt8
  | tile => 0x90
  | data => 0x93
  | ending => 0xD9

structure Codestream where
  size : SizeSegment
  segments : List Segment
  closing : Closing
  /-- Whatever stands behind the main header. -/
  tiles : Bytes

namespace Codestream

def mainHeader (codestream : Codestream) : Bytes :=
  [0xFF, 0x4F] ++ ([0xFF, 0x51] ++ Bytes.toBigEndian 2 (codestream.size.encode.length + 2) ++
    codestream.size.encode) ++ codestream.segments.flatMap Segment.encode ++
    [0xFF, codestream.closing.code]

def encode (codestream : Codestream) : Bytes := codestream.mainHeader ++ codestream.tiles

def record (codestream : Codestream) : Record where
  width := codestream.size.width.toNat
  height := codestream.size.height.toNat
  tileWidth := codestream.size.tileWidth.toNat
  tileHeight := codestream.size.tileHeight.toNat
  numComponents := codestream.size.components.toNat
  componentSize := codestream.size.depth.toNat % 128 + 1
  decompositionLevels := (codestream.segments.filterMap Segment.levels?).getLast?.getD 0

end Codestream

structure Stream where
  wrapping : Wrapping
  codestream : Codestream
  fits : wrapping.form.Fits codestream.encode.length := by decide

namespace Stream

def head (stream : Stream) : Bytes :=
  stream.wrapping.front stream.codestream.encode.length ++ stream.codestream.mainHeader

def encode (stream : Stream) : Bytes := stream.head ++ stream.codestream.tiles

def record (stream : Stream) : Record := stream.wrapping.complete stream.codestream.record

end Stream

end ImageDerivative.Jp2
