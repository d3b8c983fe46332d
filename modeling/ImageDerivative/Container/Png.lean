import ImageDerivative.Checksum
import ImageDerivative.Container.Format
import ImageDerivative.Container.Header

/-! PNG structure: a signature, then chunks, each with its length, its kind and a
checksum over kind and content. The first chunk is the header; the image data
follows in one or more chunks that stand together. -/
namespace ImageDerivative.Png

open HeaderError

structure Chunk where
  kind : Bytes
  content : Bytes
  deriving DecidableEq, Repr

namespace Chunk

def checksum (chunk : Chunk) : Nat := (Checksum.crc32 (chunk.kind ++ chunk.content)).toNat

def toBytes (chunk : Chunk) : Bytes :=
  Bytes.toBigEndian 4 chunk.content.length ++ chunk.kind ++ chunk.content ++
    Bytes.toBigEndian 4 chunk.checksum

/-- A kind that begins with a capital letter is needed to show the image. -/
def isCritical (chunk : Chunk) : Bool := chunk.kind.head?.all fun b => b &&& 0x20 = 0

end Chunk

structure ChunkStart where
  length : Nat
  kind : Bytes
  deriving DecidableEq, Repr

namespace ChunkStart

def read : Read HeaderError ChunkStart := do
  let length ← Read.bigEndian 4
  return ⟨length, ← Read.field 4⟩

/-- What follows the beginning of a chunk. Where the image can be shown without the
chunk, its checksum has no say. -/
def readRest (start : ChunkStart) : Read HeaderError Chunk := do
  let chunk : Chunk := ⟨start.kind, ← Read.run start.length⟩
  let checksum ← Read.bigEndian 4
  require (checksum = chunk.checksum || !chunk.isCritical)
  return chunk

end ChunkStart

inductive PixelKind where
  | gray
  | rgb
  | palette
  | grayAlpha
  | rgba
  deriving DecidableEq, Repr

namespace PixelKind

def all : List PixelKind := [gray, rgb, palette, grayAlpha, rgba]

def code : PixelKind → Nat
  | gray => 0
  | rgb => 2
  | palette => 3
  | grayAlpha => 4
  | rgba => 6

/-- The samples of a pixel; a palette index is one. -/
def samples : PixelKind → Nat
  | gray | palette => 1
  | grayAlpha => 2
  | rgb => 3
  | rgba => 4

def depths : PixelKind → List Nat
  | gray => [1, 2, 4, 8, 16]
  | palette => [1, 2, 4, 8]
  | rgb | grayAlpha | rgba => [8, 16]

end PixelKind

structure Header where
  width : Nat
  height : Nat
  /-- The bits of a sample. -/
  depth : Nat
  pixelKind : PixelKind
  interlaced : Bool
  deriving DecidableEq, Repr

namespace Header

def length : Nat := 13

def toBytes (header : Header) : Bytes :=
  Bytes.toBigEndian 4 header.width ++ Bytes.toBigEndian 4 header.height ++
    Bytes.toBigEndian 1 header.depth ++ Bytes.toBigEndian 1 header.pixelKind.code ++
    [0, 0, if header.interlaced then 1 else 0]

/-- A size is positive on both axes; the depth has to suit the kind of pixel. -/
def ofBytes? : Bytes → Option Header
  | [w3, w2, w1, w0, h3, h2, h1, h0, depth, code, 0, 0, interlaced] => do
    let pixelKind ← PixelKind.all.find? fun kind => kind.code = code.toNat
    let width := Bytes.ofBigEndian [w3, w2, w1, w0]
    let height := Bytes.ofBigEndian [h3, h2, h1, h0]
    if width = 0 ∨ height = 0 ∨ interlaced > 1 ∨ depth.toNat ∉ pixelKind.depths then none
    else some { width, height, depth := depth.toNat, pixelKind, interlaced := interlaced = 1 }
  | _ => none

end Header

def headerKind : Bytes := Bytes.ofText "IHDR"

def dataKind : Bytes := Bytes.ofText "IDAT"

/-- The data of a later frame. -/
def frameDataKind : Bytes := Bytes.ofText "fdAT"

def endKind : Bytes := Bytes.ofText "IEND"

/-- The signature is looked at in two halves. -/
def readSignature : Read HeaderError Unit := do
  let first ← Read.field 4
  require (first = Format.pngSignature.take 4)
  let second ← Read.field 4
  require (second = Format.pngSignature.drop 4)

/-- The signature and the header, which has to be the first chunk. -/
def readHeader : Read HeaderError Header := do
  readSignature
  let start ← ChunkStart.read
  require (start.kind = headerKind && start.length = Header.length)
  demand (Header.ofBytes? (← start.readRest).content)

/-- The chunks before the image data, and how the data begins. -/
def readToData : Read HeaderError (List Chunk × ChunkStart) := do
  Read.walk (fun before => do
    let start ← ChunkStart.read
    if start.kind = dataKind then return .inr (before.reverse, start)
    require (start.kind ≠ headerKind && start.kind ≠ frameDataKind)
    let chunk ← start.readRest
    require (chunk.kind ≠ endKind)
    return .inl (chunk :: before)) .cutShort []

/-- The size of the image. The header counts only if image data begins behind it. -/
def readSize : Read HeaderError (Nat × Nat) := do
  let header ← readHeader
  let _ ← readToData
  return (header.width, header.height)

end ImageDerivative.Png
