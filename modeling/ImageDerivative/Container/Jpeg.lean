import ImageDerivative.Container.Error
import ImageDerivative.Container.PhotoshopResource
import ImageDerivative.Container.Xmp

/-! JPEG marker segments up to the first scan. A marker is 0xFF, any number of
further 0xFF, and a code; most codes are followed by a segment whose two-byte
length counts itself. The frame gives the size, application segments the rest. -/
namespace ImageDerivative.Jpeg

def format : String := "JPEG"

inductive ColorTransform where
  | unknown
  | ycbcr
  | ycck
  deriving DecidableEq, Repr

def ColorTransform.name : ColorTransform → String
  | unknown => "unknown"
  | ycbcr => "ycbcr"
  | ycck => "ycck"

def ColorTransform.ofByte? : UInt8 → Option ColorTransform
  | 0 => some unknown
  | 1 => some ycbcr
  | 2 => some ycck
  | _ => none

structure Record where
  width : Nat := 0
  height : Nat := 0
  exif : Option Bytes := none
  iptc : Option Bytes := none
  xmp : Option String := none
  /-- The RDF element put together from the chunks of extended XMP. -/
  extendedXmp : Option String := none
  iccProfile : Option Bytes := none
  hasAdobeSegment : Bool := false
  colorTransform : Option ColorTransform := none
  deriving DecidableEq, Repr

/-- A piece of something that is spread over several segments. -/
structure Chunk where
  /-- A sequence number, or the offset of the first byte. -/
  key : Nat
  bytes : Bytes
  deriving DecidableEq, Repr

/-- Chunks by increasing key; those of one key keep their order. -/
def Chunk.sorted (chunks : List Chunk) : List Chunk :=
  chunks.mergeSort fun a b => a.key ≤ b.key

structure Progress where
  record : Record := {}
  icc : List Chunk := []
  extended : List Chunk := []
  /-- The greatest full length that a chunk of extended XMP declares. -/
  extendedLength : Nat := 0
  deriving DecidableEq, Repr

def exifHeader : Bytes := Bytes.ofText "Exif" ++ [0, 0]

def xmpHeader : Bytes := Bytes.ofText "http://ns.adobe.com/xap/1.0/" ++ [0]

def extendedXmpHeader : Bytes := Bytes.ofText "http://ns.adobe.com/xmp/extension/" ++ [0]

def iccHeader : Bytes := Bytes.ofText "ICC_PROFILE" ++ [0]

def adobeHeader : Bytes := Bytes.ofText "Adobe"

/-- The part of an extended XMP segment after its header: an identifier of 32
bytes, the full length, the offset of the chunk, and the chunk. -/
def Progress.addExtended (p : Progress) (segment : Bytes) : Progress :=
  if segment.length < 40 then p
  else
    let full := Bytes.ofBigEndian ((segment.drop 32).take 4)
    let offset := Bytes.ofBigEndian ((segment.drop 36).take 4)
    let part := segment.drop 40
    if offset + part.length > full then p
    else { p with
      extended := p.extended ++ [⟨offset, part⟩]
      extendedLength := max p.extendedLength full }

def Progress.addApp1 (p : Progress) (segment : Bytes) : Progress :=
  match Bytes.after? exifHeader segment with
  | some exif => { p with record := { p.record with exif := some exif } }
  | none =>
    match Bytes.after? xmpHeader segment with
    | some packet => { p with record := { p.record with xmp := Xmp.rdfOfBytes packet } }
    | none =>
      match Bytes.after? extendedXmpHeader segment with
      | some rest => p.addExtended rest
      | none => p

/-- A profile segment holds its sequence number, the number of chunks, and a chunk. -/
def Progress.addApp2 (p : Progress) (segment : Bytes) : Progress :=
  match Bytes.after? iccHeader segment with
  | some (sequence :: _count :: part) =>
    { p with icc := p.icc ++ [⟨sequence.toNat, part⟩] }
  | _ => p

def Progress.addApp13 (p : Progress) (segment : Bytes) : Progress :=
  if segment.startsWith PhotoshopResource.header then
    match PhotoshopResource.findIptc? segment with
    | some iptc => { p with record := { p.record with iptc := some iptc } }
    | none => p
  else p

def Progress.addApp14 (p : Progress) (segment : Bytes) : Progress :=
  match segment.startsWith adobeHeader, segment[11]? with
  | true, some transform => { p with record := { p.record with
      hasAdobeSegment := true
      colorTransform := ColorTransform.ofByte? transform } }
  | _, _ => p

/-- The frame header: a precision byte, the height, the width. -/
def Progress.addFrame? (p : Progress) (segment : Bytes) : Option Progress := do
  let height ← Bytes.slice? segment 1 2
  let width ← Bytes.slice? segment 3 2
  return { p with record := { p.record with
    height := Bytes.ofBigEndian height
    width := Bytes.ofBigEndian width } }

/-- `part` written over the end of `packet` at `offset`, with blanks in a gap. -/
def place (packet : Bytes) (chunk : Chunk) : Bytes :=
  packet.take chunk.key ++ List.replicate (chunk.key - packet.length) 0x20 ++ chunk.bytes

/-- The extended packet, unless fewer bytes arrived than were declared. -/
def assembleExtended? (chunks : List Chunk) (declared : Nat) : Option Bytes :=
  if declared > (chunks.flatMap fun chunk => chunk.bytes).length then none
  else some ((Chunk.sorted chunks).foldl place [])

def Progress.finish (p : Progress) : Record :=
  { p.record with
    iccProfile :=
      if p.icc.isEmpty then none
      else some ((Chunk.sorted p.icc).flatMap fun chunk => chunk.bytes)
    extendedXmp :=
      if p.extended.isEmpty then none
      else (assembleExtended? p.extended p.extendedLength).bind Xmp.rdfOfBytes }

def malformed (defect : Defect) : MetadataError := .malformed format defect

def nextMarker : Read MetadataError UInt8 := do
  let lead ← Read.byte
  unless lead = 0xFF do
    throw (malformed (.notMarker lead))
  Read.walk (fun () => do
    let code ← Read.byte
    return if code = 0xFF then .inl () else .inr code) (.io .stalled) ()

/-- The length of the segment that follows, without the two bytes that hold it. -/
def segmentLength : Read MetadataError Nat := do
  let length ← Read.bigEndian 2
  if length < 2 then throw (malformed (.segmentLength length))
  return length - 2

def readSegment : Read MetadataError Bytes := do
  Read.run (← segmentLength)

def skipSegment : Read MetadataError Unit := do
  Read.skip (← segmentLength)

/-- What a marker code means to the walk. -/
inductive Marker where
  /-- The start of a scan or the end of the image. -/
  | final
  /-- A marker that no segment follows. -/
  | standalone
  | frame
  | app1
  | app2
  | app13
  | app14
  | other
  deriving DecidableEq, Repr

def Marker.ofCode (code : UInt8) : Marker :=
  if code = 0xDA ∨ code = 0xD9 then final
  else if code = 0xD8 ∨ code = 0x01 ∨ (0xD0 ≤ code ∧ code ≤ 0xD7) then standalone
  else if 0xC0 ≤ code ∧ code ≤ 0xCF ∧ code ≠ 0xC4 ∧ code ≠ 0xC8 ∧ code ≠ 0xCC then frame
  else if code = 0xE1 then app1
  else if code = 0xE2 then app2
  else if code = 0xED then app13
  else if code = 0xEE then app14
  else other

/-- One marker, with its segment if it has one. -/
def walkSegment (p : Progress) : Read MetadataError (Progress ⊕ Progress) := do
  match Marker.ofCode (← nextMarker) with
  | .final => return .inr p
  | .standalone => return .inl p
  | .frame =>
    match p.addFrame? (← readSegment) with
    | some p => return .inl p
    | none => throw (malformed .frameTooShort)
  | .app1 => return .inl (p.addApp1 (← readSegment))
  | .app2 => return .inl (p.addApp2 (← readSegment))
  | .app13 => return .inl (p.addApp13 (← readSegment))
  | .app14 => return .inl (p.addApp14 (← readSegment))
  | .other =>
    skipSegment
    return .inl p

def read : Read MetadataError Record := do
  let start ← Read.field 2
  unless start = [0xFF, 0xD8] do
    throw (.invalidSignature format start)
  let p ← Read.walk walkSegment (.io .stalled) ({} : Progress)
  return p.finish

end ImageDerivative.Jpeg
