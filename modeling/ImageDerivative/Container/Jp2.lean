import ImageDerivative.Container.Error
import ImageDerivative.Container.Format
import ImageDerivative.Container.Xmp

/-! JPEG 2000: boxes around a codestream, or a bare codestream. A box has a
length of four bytes that counts its header (1 announces a length of eight bytes,
0 a box that reaches the end), a type, and contents. Boxes with an identifier of
16 bytes carry metadata; the codestream's main header gives the geometry. -/
namespace ImageDerivative.Jp2

def format : String := "JP2"

def exifUuid : Bytes := Bytes.ofText "JpgTiffExif->JP2"

def iptcUuid : Bytes :=
  [0x33, 0xC7, 0xA4, 0xD2, 0xB8, 0x1D, 0x47, 0x23, 0xA0, 0xBA, 0xF1, 0xA3, 0xE0, 0x97, 0xAD, 0x38]

def xmpUuid : Bytes :=
  [0xBE, 0x7A, 0xCF, 0xCB, 0x97, 0xA9, 0x42, 0xE8, 0x9C, 0x71, 0x99, 0x94, 0x91, 0xE3, 0xAF, 0xAC]

structure Record where
  width : Nat := 0
  height : Nat := 0
  tileWidth : Nat := 0
  tileHeight : Nat := 0
  numComponents : Nat := 0
  /-- The bits of a sample of the first component. -/
  componentSize : Nat := 0
  decompositionLevels : Nat := 0
  exif : Option Bytes := none
  iptc : Option Bytes := none
  xmp : Option String := none
  deriving DecidableEq, Repr

/-- How many resolutions a decoder can choose from. -/
def Record.numResolutions (record : Record) : Nat := record.decompositionLevels + 1

def malformed (defect : Defect) : MetadataError := .malformed format defect

/-- The length of the segment that follows, without the two bytes that hold it. -/
def segmentLength : Read MetadataError Nat := do
  let length ← Read.bigEndian 2
  if length < 2 then throw (malformed (.segmentLength length))
  return length - 2

def readSegment : Read MetadataError Bytes := do
  Read.run (← segmentLength)

def minSizeLength : Nat := 37

def numberAt (data : Bytes) (start width : Nat) : Nat :=
  Bytes.ofBigEndian ((data.drop start).take width)

/-- The top bit of a component's size marks signed samples. -/
def Record.withSize (record : Record) (data : Bytes) : Record :=
  { record with
    width := numberAt data 2 4
    height := numberAt data 6 4
    tileWidth := numberAt data 18 4
    tileHeight := numberAt data 22 4
    numComponents := numberAt data 34 2
    componentSize := numberAt data 36 1 % 128 + 1 }

/-- The number of bytes that name a component. -/
def componentWidth (record : Record) : Nat := if record.numComponents < 257 then 1 else 2

/-- One marker of the main header, with its segment if it has one. Whatever does
not begin with 0xFF ends the header, as do the first tile and the end marker. -/
def walkMarker (record : Record) : Read MetadataError (Record ⊕ Record) := do
  let marker ← Read.field 2
  match marker with
  | [0xFF, code] =>
    match code with
    | 0x4F => return .inl record
    | 0x51 =>
      let data ← readSegment
      if data.length < minSizeLength then throw (malformed (.sizeTooShort data.length))
      return .inl (record.withSize data)
    | 0x52 =>
      match (← readSegment)[5]? with
      | some levels => return .inl { record with decompositionLevels := levels.toNat }
      | none => throw (malformed .codingTooShort)
    | 0x53 =>
      match (← readSegment)[componentWidth record + 1]? with
      | some levels => return .inl { record with decompositionLevels := levels.toNat }
      | none => throw (malformed .componentCodingTooShort)
    | 0x90 | 0x93 | 0xD9 => return .inr record
    | _ =>
      Read.skip (← segmentLength)
      return .inl record
  | _ => return .inr record

def readCodestream (record : Record) : Read MetadataError Record :=
  Read.walk walkMarker (.io .stalled) record

/-- The length of a box's contents, from the four bytes of its length on. -/
def contentLength (length : Nat) : Read MetadataError Nat := do
  match length with
  | 0 => return (← Read.length) - (← Read.position)
  | 1 =>
    let extended ← Read.bigEndian 8
    if extended < 16 then throw (malformed .extendedBoxLength)
    return extended - 16
  | length =>
    if length < 8 then throw (malformed (.boxLength length))
    return length - 8

def readUuidBox (record : Record) (length : Nat) : Read MetadataError Record := do
  if length < 16 then throw (malformed .uuidBoxTooShort)
  let uuid ← Read.field 16
  if uuid = exifUuid then
    return { record with exif := some (← Read.run (length - 16)) }
  else if uuid = iptcUuid then
    return { record with iptc := some (← Read.run (length - 16)) }
  else if uuid = xmpUuid then
    return { record with xmp := Xmp.rdfOfBytes (← Read.run (length - 16)) }
  else
    Read.skip (length - 16)
    return record

/-- One box, if the end has not been reached. The codestream is the last one read. -/
def walkBox (record : Record) : Read MetadataError (Record ⊕ Record) := do
  if (← Read.length) ≤ (← Read.position) then return .inr record
  let length ← Read.bigEndian 4
  let type ← Read.field 4
  let content ← contentLength length
  if type = Bytes.ofText "uuid" then
    return .inl (← readUuidBox record content)
  else if type = Bytes.ofText "jp2c" then
    return .inr (← readCodestream record)
  else
    Read.skip content
    return .inl record

def walkBoxes (record : Record) : Read MetadataError Record :=
  Read.walk walkBox (.io .stalled) record

def read : Read MetadataError Record := do
  Read.mark (ε := MetadataError)
  let start ← Read.field 12
  Read.reset
  if start.take 4 = Format.codestreamSignature then readCodestream {}
  else if start = Format.jp2Signature then walkBoxes {}
  else throw (.invalidSignature format start)

end ImageDerivative.Jp2
