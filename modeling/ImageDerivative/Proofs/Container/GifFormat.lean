import ImageDerivative.Container.Gif

/-! The written form of GIF block streams. Every part carries the lengths and ranges
that the format gives it, so that each stream of this type is well formed; the bytes
inside tables, text grids and counted runs are arbitrary. -/
namespace ImageDerivative.Gif

/-- A counted run of one to 255 bytes. -/
structure SubBlock where
  bytes : Bytes
  some : bytes ≠ []
  short : bytes.length < 256

def SubBlock.encode (block : SubBlock) : Bytes := UInt8.ofNat block.bytes.length :: block.bytes

def encodeData (data : List SubBlock) : Bytes := data.flatMap SubBlock.encode ++ [0]

/-- A color table of the length that `flags` declare, empty if they declare none. -/
structure ColorTable (flags : UInt8) where
  bytes : Bytes
  length_eq : bytes.length = (colorTableLength? flags).getD 0

/-- The part of the XMP trailer before its first zero: one, then 255 down to one. -/
def xmpCountdown : Bytes := 0x01 :: (List.range 255).map fun k => UInt8.ofNat (255 - k)

/-- The 258 bytes behind an XMP packet. Read as counted runs, they end wherever in
the packet a count leads to. -/
def xmpTrailer : Bytes := xmpCountdown ++ [0, 0]

/-- What tells the reader that an application extension is one of those it knows. -/
def netscapeName : Bytes := Bytes.ofText "NETSCAPE" ++ Bytes.ofText "2.0"

def xmpName : Bytes := Bytes.ofText "XMP Data" ++ Bytes.ofText "XMP"

inductive Block where
  | image (placement : Vector UInt8 8) (flags : UInt8) (table : ColorTable flags)
      (codeSize : UInt8) (data : List SubBlock)
  | plainText (grid : Vector UInt8 12) (data : List SubBlock)
  | graphicControl (flags : UInt8) (delay : UInt16) (transparent : UInt8)
  | netscape (count : UInt16)
  | xmp (packet : Bytes) (nonzero : 0 ∉ packet)
  | application (identifier : Vector UInt8 8) (code : Vector UInt8 3)
      (other : identifier.toList ++ code.toList ≠ netscapeName ∧
        identifier.toList ++ code.toList ≠ xmpName) (data : List SubBlock)
  | extension (label : UInt8) (other : label ≠ 0x01 ∧ label ≠ 0xF9 ∧ label ≠ 0xFF)
      (data : List SubBlock)

namespace Block

def encode : Block → Bytes
  | image placement flags table codeSize data =>
    [0x2C] ++ (placement.toList ++ [flags]) ++ table.bytes ++ [codeSize] ++ encodeData data
  | plainText grid data => [0x21, 0x01] ++ ([12] ++ grid.toList) ++ encodeData data
  | graphicControl flags delay transparent =>
    [0x21, 0xF9] ++ [4, flags] ++ Bytes.toLittleEndian 2 delay.toNat ++ [transparent, 0]
  | netscape count =>
    [0x21, 0xFF, 11] ++ netscapeName ++ [3, 1] ++ Bytes.toLittleEndian 2 count.toNat ++ [0]
  | xmp packet _ => [0x21, 0xFF, 11] ++ xmpName ++ packet ++ xmpTrailer
  | application identifier code _ data =>
    [0x21, 0xFF, 11] ++ (identifier.toList ++ code.toList) ++ encodeData data
  | extension label _ data => [0x21, label] ++ encodeData data

def delay? : Block → Option Nat
  | graphicControl _ delay _ => some delay.toNat
  | _ => none

def loopCount? : Block → Option Nat
  | netscape count => some count.toNat
  | _ => none

/-- The text of an XMP block, which may be none. A packet that is too long with its
trailer is not kept. -/
def xmp? : Block → Option (Option String)
  | xmp packet _ =>
    some (if packet.length + xmpTrailerLength ≤ maxXmpLength then Xmp.rdfOfBytes packet else none)
  | _ => none

end Block

/-- Bytes that introduce no block. -/
structure Gap where
  bytes : Bytes
  quiet : ∀ b ∈ bytes, b ≠ 0x2C ∧ b ≠ 0x21 ∧ b ≠ 0x3B

inductive Version where
  | v87a
  | v89a

def Version.text : Version → String
  | v87a => "87a"
  | v89a => "89a"

structure Stream where
  version : Version
  width : UInt16
  height : UInt16
  flags : UInt8
  background : UInt8
  aspect : UInt8
  table : ColorTable flags
  /-- Each block behind the gap before it. -/
  blocks : List (Gap × Block)
  /-- The gap before the trailer. -/
  gap : Gap

namespace Stream

def encodeHeader (stream : Stream) : Bytes :=
  Bytes.ofText "GIF" ++ Bytes.ofText stream.version.text ++
    Bytes.toLittleEndian 2 stream.width.toNat ++ Bytes.toLittleEndian 2 stream.height.toNat ++
    [stream.flags] ++ [stream.background, stream.aspect]

def encodeBlocks (stream : Stream) : Bytes :=
  stream.blocks.flatMap fun (gap, block) => gap.bytes ++ block.encode

def encode (stream : Stream) : Bytes :=
  stream.encodeHeader ++ stream.table.bytes ++ stream.encodeBlocks ++ stream.gap.bytes ++ [0x3B]

/-- What the stream tells: of each kind of extension the last one counts. -/
def record (stream : Stream) : Record :=
  let blocks := stream.blocks.map Prod.snd
  { width := stream.width.toNat
    height := stream.height.toNat
    colorTableLength := colorTableLength? stream.flags
    loopCount := (blocks.filterMap Block.loopCount?).getLast?.getD 1
    delayTime := (blocks.filterMap Block.delay?).getLast?.getD 0
    xmp := (blocks.filterMap Block.xmp?).getLast?.join }

end Stream

end ImageDerivative.Gif
