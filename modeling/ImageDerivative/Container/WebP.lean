import ImageDerivative.Container.Header

/-! WebP structure: a RIFF header, then a chunk that holds the image, or one that
announces the canvas of an extended file, whose other chunks follow. -/
namespace ImageDerivative.WebP

open HeaderError

/-- How a chunk begins: its kind and the length of its content. -/
structure ChunkStart where
  kind : Bytes
  length : Nat
  deriving DecidableEq, Repr

namespace ChunkStart

def read : Read HeaderError ChunkStart := do
  let kind ← Read.field 4
  return ⟨kind, ← Read.littleEndian 4⟩

def isOf (start : ChunkStart) (kind : String) : Bool := start.kind = Bytes.ofText kind

/-- The length of the content with the byte that makes it even. -/
def paddedLength (start : ChunkStart) : Nat :=
  min (start.length + start.length % 2) 0xFFFFFFFF

end ChunkStart

def startLength : Nat := 8

def losslessMark : UInt8 := 0x2F

/-- The three bytes that a lossy image begins with, after its frame tag. -/
def lossyMark : Bytes := [0x9D, 0x01, 0x2A]

/-- An axis takes fourteen bits. -/
def axisRange : Nat := 0x4000

/-- The two axes, each less one. The longest wraps around. -/
def losslessSize (fields : Nat) : Nat × Nat :=
  ((fields + 1) % axisRange, (fields / axisRange + 1) % axisRange)

/-- The three highest bits of the fields are the version, which is zero. -/
def readLossless : Read HeaderError (Nat × Nat) := do
  let mark ← Read.byte
  require (mark = losslessMark)
  let fields ← Read.littleEndian 4
  require (fields < 0x20000000)
  return losslessSize fields

/-- Bit 0 of the frame tag is set in a frame that depends on another. -/
def readLossy : Read HeaderError (Nat × Nat) := do
  let tag ← Read.littleEndian 3
  require (tag % 2 = 0)
  let mark ← Read.field 3
  require (mark = lossyMark)
  let width := (← Read.littleEndian 2) % axisRange
  let height := (← Read.littleEndian 2) % axisRange
  require (width ≠ 0 && height ≠ 0)
  return (width, height)

/-- What the flags of an extended file announce. -/
structure Features where
  exif : Bool
  xmp : Bool
  animation : Bool
  deriving DecidableEq, Repr

def Features.ofFlags (flags : UInt8) : Features where
  exif := flags &&& 0x08 ≠ 0
  xmp := flags &&& 0x04 ≠ 0
  animation := flags &&& 0x02 ≠ 0

/-- A chunk and the place where its content begins. -/
structure Placed where
  start : ChunkStart
  offset : Nat
  deriving DecidableEq, Repr

def find? (chunks : List Placed) (kind : String) : Option Placed :=
  chunks.find? fun chunk => chunk.start.isOf kind

def has (chunks : List Placed) (kind : String) : Bool := (find? chunks kind).isSome

/-- The parts of a frame before the chunks of its image, with its duration last. -/
def frameLength : Nat := 16

def minFrame : Nat := frameLength + startLength

/-- Passes over a frame. While no image with a loss has been seen, the first
chunk of the frame is looked at; the answer is whether such an image is known. -/
def passFrame (frame : ChunkStart) (lossy : Bool) : Read HeaderError Bool := do
  require (frame.length ≥ minFrame)
  Read.skip (frameLength - 4)
  let _ ← Read.field 4
  if lossy then
    Read.skip (frame.paddedLength - frameLength)
    return true
  else
    let first ← ChunkStart.read
    Read.skip (frame.paddedLength - minFrame)
    return first.isOf "VP8 " || first.isOf "ALPH"

/-- The chunks from here to the place `stop`. The data may end between two. -/
def readChunks (stop : Nat) : Read HeaderError (List Placed) := do
  Read.walk (fun (before, lossy) => do
    let c ← get
    if c.pos ≥ stop || c.remaining < startLength then return .inr before.reverse
    let start ← ChunkStart.read
    let chunks := ⟨start, c.pos + startLength⟩ :: before
    if start.isOf "ANMF" then return .inl (chunks, ← passFrame start lossy)
    Read.skip start.paddedLength
    return .inl (chunks, lossy)) .cutShort (([] : List Placed), false)

/-- A file has what it announces: its metadata, and either frames or one image. -/
def isComplete (features : Features) (chunks : List Placed) : Bool :=
  (!features.exif || has chunks "EXIF") && (!features.xmp || has chunks "XMP ") &&
    if features.animation then has chunks "ANIM" && has chunks "ANMF"
    else has chunks "VP8 " != has chunks "VP8L"

/-- The background color and the number of turns of an animation. -/
def animationLength : Nat := 6

def checkAnimation (chunks : List Placed) : Read HeaderError Unit := do
  let animation ← demand (find? chunks "ANIM")
  require (animation.start.length ≤ animationLength)
  modify fun c => c.seek animation.offset
  let _ ← Read.field animation.start.length
  if animation.start.length < animationLength then throw .cutShort

/-- The beginnings of the first two chunks of a frame have to be there, if the frame
has room for two. -/
def checkFirstFrame (chunks : List Placed) : Read HeaderError Unit := do
  if let some frame := find? chunks "ANMF" then
    let offset := frame.offset + frameLength
    modify fun c => c.seek offset
    let first ← ChunkStart.read
    let next := offset + startLength + first.paddedLength
    if next + startLength ≤ frame.offset + frame.start.length then
      modify fun c => c.seek next
      let _ ← ChunkStart.read

/-- The canvas of an extended file. Its other chunks are looked at as well. -/
def readCanvas (riffLength : Nat) (chunk : ChunkStart) : Read HeaderError (Nat × Nat) := do
  let start ← Read.position
  let features := Features.ofFlags (← Read.byte)
  let _ ← Read.field 3
  let width := (← Read.littleEndian 3) + 1
  let height := (← Read.littleEndian 3) + 1
  require (width * height < 0x100000000)
  let next := start + chunk.paddedLength
  modify fun c => c.seek next
  let chunks ← readChunks (next + (riffLength - 12))
  require (isComplete features chunks)
  if features.animation then checkAnimation chunks
  checkFirstFrame chunks
  return (width, height)

def readSize : Read HeaderError (Nat × Nat) := do
  let riff ← ChunkStart.read
  require (riff.isOf "RIFF")
  let kind ← Read.field 4
  require (kind = Bytes.ofText "WEBP")
  let chunk ← ChunkStart.read
  if chunk.isOf "VP8L" then readLossless
  else if chunk.isOf "VP8 " then readLossy
  else if chunk.isOf "VP8X" then readCanvas riff.length chunk
  else throw .refused

end ImageDerivative.WebP
