import ImageDerivative.Bytes

/-! Two checksums over byte strings: the cyclic redundancy check that closes a
chunk, and the pair of running sums that closes a compressed stream. -/
namespace ImageDerivative.Checksum

/-- The generator polynomial, its lowest power in the highest bit. -/
def polynomial : UInt32 := 0xEDB88320

/-- One bit of the division. -/
def shift (c : UInt32) : UInt32 := if c &&& 1 = 1 then (c >>> 1) ^^^ polynomial else c >>> 1

def crcByte (c : UInt32) (b : UInt8) : UInt32 := Nat.repeat shift 8 (c ^^^ b.toUInt32)

/-- The remainder starts with all bits set and is complemented at the end. -/
def crc32 (bytes : Bytes) : UInt32 := bytes.foldl crcByte 0xFFFFFFFF ^^^ 0xFFFFFFFF

/-- The greatest prime below `2 ^ 16`. -/
def adlerModulus : Nat := 65521

def adler32 (bytes : Bytes) : Nat :=
  let (low, high) := bytes.foldl (fun (low, high) b =>
    let low := (low + b.toNat) % adlerModulus
    (low, (high + low) % adlerModulus)) (1, 0)
  high * 65536 + low

end ImageDerivative.Checksum
