import ImageDerivative.Container.Header

/-! The frame of a JPEG file as a decoder meets it. Bytes between segments are passed
over; the segments that a decoder needs have to be sound up to the first scan. -/
namespace ImageDerivative.Jpeg

open HeaderError

structure Frame where
  width : Nat
  height : Nat
  /-- What scans call the components. -/
  components : List UInt8
  deriving DecidableEq, Repr

/-- There are at most four components, and four tables of each sort. -/
def maxTables : Nat := 4

def readLengthField : Read HeaderError Nat := Read.bigEndian 2

def readContentLength : Read HeaderError Nat := do
  let length ← readLengthField
  require (length ≥ 2)
  return length - 2

def skipContent : Read HeaderError Unit := do
  Read.skip (← readContentLength)

namespace Frame

def isSampling (n : UInt8) : Bool := n = 1 || n = 2 || n = 4 || n = 8

def readComponent : Read HeaderError UInt8 := do
  let id ← Read.byte
  let sampling ← Read.byte
  let table ← Read.byte
  require (table.toNat < maxTables && isSampling (sampling >>> 4) && isSampling (sampling &&& 0x0F))
  return id

def readComponents : (count : Nat) → Read HeaderError (List UInt8)
  | 0 => return []
  | count + 1 => do
    let id ← readComponent
    return id :: (← readComponents count)

/-- Samples have eight bits, and no axis is empty. -/
def read : Read HeaderError Frame := do
  let length ← readLengthField
  let precision ← Read.byte
  require (precision = 8)
  let height ← Read.bigEndian 2
  let width ← Read.bigEndian 2
  require (width ≠ 0 && height ≠ 0)
  let count := (← Read.byte).toNat
  require (count ≠ 0 && count ≤ maxTables && length = 8 + 3 * count)
  return { width, height, components := ← readComponents count }

end Frame

/-- The components that a scan lists are components of the frame, each once. -/
def readScanComponents (frame : Frame) : (count : Nat) → (seen : List UInt8) →
    Read HeaderError Unit
  | 0, _ => return
  | count + 1, seen => do
    let id ← Read.byte
    require (frame.components.contains id && !seen.contains id)
    let _ ← Read.byte
    readScanComponents frame count (id :: seen)

/-- The header of a scan: its components, the range of coefficients, and the two
bit positions of their approximation. -/
def readScan (frame : Frame) : Read HeaderError Unit := do
  let length ← readLengthField
  let count := (← Read.byte).toNat
  require (length = 6 + 2 * count && count ≠ 0 && count ≤ maxTables)
  readScanComponents frame count []
  let first ← Read.byte
  let last ← Read.byte
  let bits ← Read.byte
  require (first ≤ 63 && last ≤ 63 && bits >>> 4 ≤ 13 && bits &&& 0x0F ≤ 13)

def readQuantization : Read HeaderError Unit := do
  Read.walk (fun left => do
    if left = 0 then return .inr ()
    let info ← Read.byte
    let width := (info >>> 4).toNat + 1
    let length := 64 * width + 1
    require (length ≤ left && width ≤ 2)
    let _ ← Read.run (length - 1)
    require ((info &&& 0x0F).toNat < maxTables)
    return .inl (left - length)) .cutShort (← readContentLength)

/-- No code of `k` bits may be all ones, given how many codes there are of each
length from `k` on and the first free code of that length. -/
def codesFit : (counts : Bytes) → (range code : Nat) → Bool
  | [], _, _ => true
  | count :: counts, range, code =>
    code + count.toNat < range && codesFit counts (2 * range) (2 * (code + count.toNat))

/-- A Huffman table: how many codes there are of each of sixteen lengths, then their
symbols. Symbols of the first class are at most fifteen. -/
def readHuffmanTable (left : Nat) : Read HeaderError Nat := do
  let info ← Read.byte
  require ((info &&& 0x0F).toNat < maxTables && info >>> 4 ≤ 1)
  let counts ← Read.field 16
  let total := counts.foldl (fun n count => n + count.toNat) 0
  require (total ≤ 256 && 17 + total ≤ left)
  let symbols ← Read.run total
  require (codesFit counts 2 0 && (info >>> 4 = 1 || symbols.all fun symbol => symbol ≤ 15))
  return left - (17 + total)

def readHuffman : Read HeaderError Unit := do
  Read.walk (fun left => do
    if left ≤ 16 then
      require (left = 0)
      return .inr ()
    return .inl (← readHuffmanTable left)) .cutShort (← readContentLength)

/-- A segment that declares a color transform has to name one of the three. -/
def readTransform : Read HeaderError Unit := do
  let length ← readContentLength
  require (length ≥ 12)
  let content ← Read.run length
  require (content.take 5 ≠ Bytes.ofText "Adobe" || content[11]?.any fun transform => transform ≤ 2)

def readRestartInterval : Read HeaderError Unit := do
  let length ← readLengthField
  require (length = 4)
  let _ ← Read.field 2

/-- The segment behind a marker code, before the first scan. The frame is there once. -/
def readSegment? (code : UInt8) (frame : Option Frame) : Read HeaderError (Option Frame) := do
  if 0xC0 ≤ code && code ≤ 0xC2 then
    require frame.isNone
    return some (← Frame.read)
  else
    if code = 0xC4 then readHuffman
    else if code = 0xDB then readQuantization
    else if code = 0xDD then readRestartInterval
    else if code = 0xEE then readTransform
    else
      require (!(0xC0 ≤ code && code ≤ 0xCF && code ≠ 0xC8) && code ≠ 0xD9 && code ≠ 0xDC)
      skipContent
    return frame

/-- Passes over zeros and set bytes; the last one passed over and the byte behind. -/
def skipFill (last next : UInt8) : Read ReadFailure (UInt8 × UInt8) :=
  Read.walk (fun (last, next) => do
    if next = 0 || next = 0xFF then return .inl (next, ← Read.byte)
    else return .inr (last, next)) .stalled (last, next)

/-- The frame that the first scan shows. A byte behind a set one is a marker code. -/
def readFrame : Read HeaderError Frame := do
  let start ← Read.field 2
  require (start = [0xFF, 0xD8])
  Read.walk (fun (last, frame) => do
    let next ← Read.byte
    let (last, next) ← if last = 0xFF then skipFill last next else pure (last, next)
    if last ≠ 0xFF then return .inl (next, frame)
    else if next = 0xDA then
      let frame ← demand frame
      readScan frame
      return .inr frame
    else return .inl (next, ← readSegment? next frame)) .cutShort
    ((0 : UInt8), (none : Option Frame))

def readSize : Read HeaderError (Nat × Nat) := do
  let frame ← readFrame
  return (frame.width, frame.height)

end ImageDerivative.Jpeg
