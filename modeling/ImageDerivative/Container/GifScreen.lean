import ImageDerivative.Container.Header

/-! The screen of a GIF file as far as it takes to trust its size: the descriptor, the
color table, extensions, and the beginning of the first other block. -/
namespace ImageDerivative.Gif.Screen

open HeaderError

/-- The length of the color table. Bit 7 of the flags says whether there is one. -/
def tableLength (flags : UInt8) : Nat :=
  if flags &&& 0x80 = 0 then 0 else 3 * Nat.pow 2 ((flags &&& 7).toNat + 1)

/-- Passes over counted blocks up to the zero behind the last; the length of their
contents. The first block may be empty. -/
def skipBlocks : Read ReadFailure Nat := do
  Read.walk (fun (length, total) => do
    let _ ← Read.run length
    let next ← Read.byte
    let total := total + length
    return if next = 0 then .inr total else .inl (next.toNat, total)) .stalled
    ((← Read.byte).toNat, 0)

def graphicControl : UInt8 := 0xF9

/-- A graphic control holds four bytes; other extensions hold any number. -/
def skipExtension : Read HeaderError Unit := do
  let label ← Read.byte
  let length ← skipBlocks
  require (label ≠ graphicControl || length = 4)

/-- From the byte that introduces a block to the first block that is no extension.
Another byte has to stand behind its introducer, unless it is the trailer of a
file with extensions. -/
def skipExtensions (introducer : UInt8) : Read HeaderError Unit :=
  Read.walk (fun introducer => do
    if introducer = 0x21 then
      skipExtension
      let next ← Read.byte
      return if next = 0x3B then .inr () else .inl next
    else
      let _ ← Read.byte
      return .inr ()) .cutShort introducer

def readSize : Read HeaderError (Nat × Nat) := do
  let version ← Read.field 6
  require (version = Bytes.ofText "GIF87a" || version = Bytes.ofText "GIF89a")
  let width ← Read.littleEndian 2
  let height ← Read.littleEndian 2
  let flags ← Read.byte
  let _ ← Read.field 2
  let _ ← Read.run (tableLength flags)
  skipExtensions (← Read.byte)
  return (width, height)

end ImageDerivative.Gif.Screen
