import ImageDerivative.Checksum

/-! Compressed streams whose blocks are all stored as they are: two header bytes,
blocks of at most 65535 bytes with their length and its complement, a checksum. -/
namespace ImageDerivative.Zlib

def maxBlock : Nat := 65535

/-- A block; bit 0 of its first byte marks the last one. -/
def block (last : Bool) (content : Bytes) : Bytes :=
  (if last then 1 else 0) :: (Bytes.toLittleEndian 2 content.length ++
    Bytes.toLittleEndian 2 (maxBlock - content.length) ++ content)

def blocks (content : Bytes) : Bytes :=
  if content.length ≤ maxBlock then block true content
  else block false (content.take maxBlock) ++ blocks (content.drop maxBlock)
termination_by content.length
decreasing_by
  rw [List.length_drop]
  simp only [maxBlock] at *
  omega

/-- A window of 32 KiB, and no dictionary. -/
def header : Bytes := [0x78, 0x01]

def store (content : Bytes) : Bytes :=
  header ++ blocks content ++ Bytes.toBigEndian 4 (Checksum.adler32 content)

/-- The content of stored blocks up to the last one. -/
def contentOfBlocks? (data : Bytes) : Option Bytes :=
  match data with
  | mark :: low :: high :: lowComplement :: highComplement :: rest =>
    let length := Bytes.ofLittleEndian [low, high]
    let content := rest.take length
    if (mark >>> 1) &&& 3 ≠ 0 ∨ content.length < length ∨
        Bytes.ofLittleEndian [lowComplement, highComplement] ≠ maxBlock - length then none
    else if mark &&& 1 = 1 then some content
    else (content ++ ·) <$> contentOfBlocks? (rest.drop length)
  | _ => none
termination_by data.length
decreasing_by
  simp only [List.length_drop, List.length_cons]
  omega

/-- The content of a stream. Its checksum is not looked at. -/
def content? : Bytes → Option Bytes
  | method :: flags :: rest =>
    let known := method &&& 0x0F = 8 ∧ method < 0x80 ∧
      Bytes.ofBigEndian [method, flags] % 31 = 0 ∧ flags &&& 0x20 = 0
    if known then contentOfBlocks? rest else none
  | _ => none

end ImageDerivative.Zlib
