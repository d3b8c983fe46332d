import ImageDerivative.Container.Jpeg

/-! The written form of JPEG streams up to the first scan, or to the end where there is
none. Segments may have any code that starts neither a scan nor the end and that has a
segment at all; their payloads are arbitrary, except that a frame has room for a size. -/
namespace ImageDerivative.Jpeg

/-- The codes that no segment follows: the start of the image, a temporary marker, and
the restarts. -/
def standaloneCodes : List UInt8 :=
  [0xD8, 0x01, 0xD0, 0xD1, 0xD2, 0xD3, 0xD4, 0xD5, 0xD6, 0xD7]

def frameCodes : List UInt8 :=
  [0xC0, 0xC1, 0xC2, 0xC3, 0xC5, 0xC6, 0xC7, 0xC9, 0xCA, 0xCB, 0xCD, 0xCE, 0xCF]

/-- What ends the walk: the start of a scan, or the end of the image. -/
inductive Closing where
  | scan
  | ending

def Closing.code : Closing → UInt8
  | scan => 0xDA
  | ending => 0xD9

/-- The code of a segment. 0xFF fills the space before a code and is none itself. -/
structure SegmentCode where
  value : UInt8
  followed : value ∉ standaloneCodes := by decide
  inside : value ≠ Closing.scan.code ∧ value ≠ Closing.ending.code := by decide
  notFill : value ≠ 0xFF := by decide

/-- What a segment of this code holds behind its length. -/
structure Payload (code : SegmentCode) where
  bytes : Bytes
  short : bytes.length ≤ 65533 := by decide
  sized : code.value ∈ frameCodes → 5 ≤ bytes.length := by decide

inductive Item where
  | standalone (code : UInt8) (known : code ∈ standaloneCodes)
  | segment (code : SegmentCode) (payload : Payload code)

/-- A marker, with `fill` more bytes than it needs before its code. -/
def encodeMarker (fill : Nat) (code : UInt8) : Bytes := List.replicate (fill + 1) 0xFF ++ [code]

/-- The byte for the color transform, if there is room for it. -/
def adobeTransform? (payload : Bytes) : Option UInt8 :=
  if payload.startsWith adobeHeader then payload[11]? else none

def photoshopIptc? (payload : Bytes) : Option Bytes :=
  (Bytes.after? PhotoshopResource.header payload).bind
    (PhotoshopResource.find? PhotoshopResource.iptcId)

/-- A sequence number and the number of chunks, then the chunk. -/
def profileChunk? (payload : Bytes) : Option Chunk :=
  match Bytes.after? iccHeader payload with
  | some (sequence :: _count :: part) => some ⟨sequence.toNat, part⟩
  | _ => none

/-- The chunk at its offset and the full length it declares, if it lies within that. -/
def extendedChunk? (payload : Bytes) : Option (Chunk × Nat) := do
  let rest ← Bytes.after? extendedXmpHeader payload
  let full ← rest.slice? 32 4
  let offset ← rest.slice? 36 4
  let part := rest.drop 40
  if Bytes.ofBigEndian offset + part.length ≤ Bytes.ofBigEndian full then
    some (⟨Bytes.ofBigEndian offset, part⟩, Bytes.ofBigEndian full)
  else none

namespace Item

def encode (fill : Nat) : Item → Bytes
  | standalone code _ => encodeMarker fill code
  | segment code payload =>
    encodeMarker fill code.value ++ Bytes.toBigEndian 2 (payload.bytes.length + 2) ++ payload.bytes

/-- The payload of a segment with one of the codes. -/
def payload? (codes : List UInt8) : Item → Option Bytes
  | standalone _ _ => none
  | segment code payload => if code.value ∈ codes then some payload.bytes else none

def frame? (item : Item) : Option Bytes := item.payload? frameCodes

def exif? (item : Item) : Option Bytes := (item.payload? [0xE1]).bind (Bytes.after? exifHeader)

def xmp? (item : Item) : Option Bytes := (item.payload? [0xE1]).bind (Bytes.after? xmpHeader)

def extended? (item : Item) : Option (Chunk × Nat) := (item.payload? [0xE1]).bind extendedChunk?

def profile? (item : Item) : Option Chunk := (item.payload? [0xE2]).bind profileChunk?

def iptc? (item : Item) : Option Bytes := (item.payload? [0xED]).bind photoshopIptc?

def adobe? (item : Item) : Option UInt8 := (item.payload? [0xEE]).bind adobeTransform?

end Item

structure Stream where
  /-- Each item behind the bytes that fill up space before it. -/
  items : List (Nat × Item)
  /-- The fill before the closing marker. -/
  fill : Nat
  closing : Closing

namespace Stream

def encode (stream : Stream) : Bytes :=
  [0xFF, 0xD8] ++ (stream.items.flatMap fun (fill, item) => item.encode fill) ++
    encodeMarker stream.fill stream.closing.code

end Stream

/-- The last thing of a kind that one of the items tells. -/
def last? {α : Type} (told? : Item → Option α) (items : List Item) : Option α :=
  (items.filterMap told?).getLast?

def numberAt (start : Nat) (payload : Bytes) : Nat :=
  Bytes.ofBigEndian ((payload.drop start).take 2)

/-- What the items tell together: of most kinds the last one, of chunks all. -/
def gathered (items : List Item) : Progress where
  record := {
    width := ((last? Item.frame? items).map (numberAt 3)).getD 0
    height := ((last? Item.frame? items).map (numberAt 1)).getD 0
    exif := last? Item.exif? items
    iptc := last? Item.iptc? items
    xmp := (last? Item.xmp? items).bind Xmp.rdfOfBytes
    hasAdobeSegment := (last? Item.adobe? items).isSome
    colorTransform := (last? Item.adobe? items).bind ColorTransform.ofByte? }
  icc := items.filterMap Item.profile?
  extended := (items.filterMap Item.extended?).map Prod.fst
  extendedLength := ((items.filterMap Item.extended?).map Prod.snd).foldl max 0

def Stream.record (stream : Stream) : Record := (gathered (stream.items.map Prod.snd)).finish

end ImageDerivative.Jpeg
