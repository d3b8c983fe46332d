import ImageDerivative.Container.Error
import ImageDerivative.Container.Xmp

/-! GIF block streams: the screen descriptor, then image descriptors (0x2C) and
extensions (0x21) up to the trailer (0x3B). No image is decoded. XMP stands in an
application extension as one raw run of bytes closed by a 258-byte trailer that
counts down to zero; it is not divided into sub-blocks. -/
namespace ImageDerivative.Gif

def format : String := "GIF"

structure Record where
  width : Nat
  height : Nat
  /-- The length in bytes of the global color table, if the header declares one. -/
  colorTableLength : Option Nat
  loopCount : Nat
  /-- The delay of a frame in hundredths of a second. -/
  delayTime : Nat
  xmp : Option String
  deriving DecidableEq, Repr

/-- The loop count of a stream that states none. -/
def defaultLoopCount : Nat := 1

/-- What remains of the XMP trailer when its zero byte has ended the run. -/
def xmpTrailerLength : Nat := 256

/-- The longest run that is kept, its trailer included. -/
def maxXmpLength : Nat := 64 * 1024

/-- Bit 0 of the flags declares a color table of `3 * 2 ^ (n + 1)` bytes, where
`n` is their low three bits. -/
def colorTableLength? (flags : UInt8) : Option Nat :=
  if flags &&& 1 = 0 then none else some (3 * Nat.pow 2 ((flags &&& 7).toNat + 1))

/-- Where a walk stands: the input, and the record as far as it is known. The
record outlives a walk that fails. -/
structure Walk where
  input : Cursor
  record : Record

abbrev Walker := EStateM ReadFailure Walk

instance : MonadLift (Read ReadFailure) Walker where
  monadLift read := fun w =>
    match read w.input with
    | .ok a input => .ok a { w with input }
    | .error failure input => .error failure { w with input }

def Walker.found (update : Record → Record) : Walker Unit :=
  modify fun w => { w with record := update w.record }

/-- Passes over counted blocks up to the empty one. -/
def skipSubBlocks : Read ReadFailure Unit :=
  Read.walk (fun () => do
    let length ← Read.byte
    if length = 0 then return .inr ()
    Read.skip length.toNat
    return .inl ()) .stalled ()

def skipToZero : Read ReadFailure Unit :=
  Read.walk (fun () => do
    if (← Read.byte) = 0 then return .inr () else return .inl ()) .stalled ()

/-- The bytes before the next zero, or nothing when there are too many. -/
def rawXmp : Read ReadFailure (Option Bytes) :=
  Read.walk (fun (raw, length) => do
    let b ← Read.byte
    if b = 0 then return .inr (some (List.reverse raw))
    if length < maxXmpLength then return .inl (b :: raw, length + 1)
    skipToZero
    return .inr none) .stalled (([] : Bytes), 0)

/-- The packet of a raw run is the run without its trailer. -/
def packetOfRaw? (raw : Bytes) : Option Bytes :=
  if raw.length < xmpTrailerLength then none
  else some (raw.take (raw.length - xmpTrailerLength))

def readXmp : Read ReadFailure (Option String) :=
  return (← rawXmp).bind packetOfRaw? |>.bind Xmp.rdfOfBytes

def skipImage : Read ReadFailure Unit := do
  let descriptor ← Read.field 9
  if let some length := descriptor[8]?.bind colorTableLength? then
    Read.skip length
  Read.skip 1
  skipSubBlocks

def readApplication : Walker Unit := do
  Read.skip 1
  let identifier ← Read.field 8
  let code ← Read.field 3
  if identifier = Bytes.ofText "NETSCAPE" ∧ code = Bytes.ofText "2.0" then
    Read.skip 2
    let count ← Read.littleEndian 2
    Walker.found fun record => { record with loopCount := count }
  else if identifier = Bytes.ofText "XMP Data" ∧ code = Bytes.ofText "XMP" then
    let xmp ← readXmp
    Walker.found fun record => { record with xmp := xmp }
  else
    skipSubBlocks

def readGraphicControl : Walker Unit := do
  Read.skip 2
  let delay ← Read.littleEndian 2
  Walker.found fun record => { record with delayTime := delay }
  Read.skip 1

def readExtension : Walker Unit := do
  match ← Read.byte with
  | 0x01 =>
    Read.skip 13
    skipSubBlocks
  | 0xFF => readApplication
  | 0xF9 => readGraphicControl
  | _ => skipSubBlocks

def walkBlock : Walker (Unit ⊕ Unit) := do
  match ← Read.byte with
  | 0x2C =>
    skipImage
    return .inl ()
  | 0x21 =>
    readExtension
    return .inl ()
  | 0x3B => return .inr ()
  | _ => return .inl ()

def walkBlocks : Walker Unit := do
  repeatUpTo (throw .stalled) (fun () => walkBlock) ((← get).input.remaining + 1) ()

/-- The screen descriptor up to the place where a color table would begin. -/
def readHeader : Read MetadataError Record := do
  let signature ← Read.field 3
  unless signature = Bytes.ofText "GIF" do
    throw (.invalidSignature format signature)
  let version ← Read.field 3
  unless version = Bytes.ofText "87a" ∨ version = Bytes.ofText "89a" do
    throw (.invalidVersion format version)
  let width ← Read.littleEndian 2
  let height ← Read.littleEndian 2
  let flags ← Read.byte
  Read.skip 2
  return {
    width, height
    colorTableLength := colorTableLength? flags
    loopCount := defaultLoopCount
    delayTime := 0
    xmp := none }

/-- The blocks after the header. A declared color table is passed over first, if
the stream is long enough to hold it; when the walk then runs off the end, the
table is taken to be missing and the blocks are walked from where it would begin. -/
def readBlocks : Walker Unit := do
  Read.mark (ε := ReadFailure)
  if let some length := (← get).record.colorTableLength then
    if length < (← Read.length (ε := ReadFailure)) then
      Read.skip length
  try walkBlocks
  catch failure =>
    if failure.isTruncation then
      Read.reset
      walkBlocks
    else throw failure

def read : Read MetadataError Record := fun input =>
  match readHeader input with
  | .error e input => .error e input
  | .ok header input =>
    match readBlocks { input, record := header } with
    | .ok () walk => .ok walk.record walk.input
    | .error failure walk => .error (.io failure) walk.input

end ImageDerivative.Gif
