import ImageDerivative.Bytes

/-! The container formats, told apart by their first bytes. -/
namespace ImageDerivative

inductive Format where
  | gif
  | jpeg
  | jpeg2000
  | png
  | tiff
  | webp
  deriving DecidableEq, Repr

namespace Format

def mimeType : Format → String
  | gif => "image/gif"
  | jpeg => "image/jpeg"
  | jpeg2000 => "image/jp2"
  | png => "image/png"
  | tiff => "image/tiff"
  | webp => "image/webp"

/-- The name shown to people. -/
def name : Format → String
  | gif => "GIF"
  | jpeg => "JPEG"
  | jpeg2000 => "JPEG2000"
  | png => "PNG"
  | tiff => "TIFF"
  | webp => "WebP"

/-- The name in structured output. -/
def key : Format → String
  | gif => "gif"
  | jpeg => "jpeg"
  | jpeg2000 => "jpeg2000"
  | png => "png"
  | tiff => "tiff"
  | webp => "webp"

/-- How many leading bytes tell every format apart. -/
def sniffLength : Nat := 12

def pngSignature : Bytes := [0x89, 0x50, 0x4E, 0x47, 0x0D, 0x0A, 0x1A, 0x0A]

def jp2Signature : Bytes :=
  [0x00, 0x00, 0x00, 0x0C, 0x6A, 0x50, 0x20, 0x20, 0x0D, 0x0A, 0x87, 0x0A]

/-- The start of a codestream, followed by its size segment. -/
def codestreamSignature : Bytes := [0xFF, 0x4F, 0xFF, 0x51]

/-- The format that the first bytes of `data` announce. -/
def detect? (data : Bytes) : Option Format :=
  if data.startsWith (Bytes.ofText "GIF87a") || data.startsWith (Bytes.ofText "GIF89a") then
    some gif
  else if data.startsWith [0xFF, 0xD8, 0xFF] then some jpeg
  else if data.startsWith jp2Signature || data.startsWith codestreamSignature then
    some jpeg2000
  else if data.startsWith pngSignature then some png
  else if data.startsWith (Bytes.ofText "II*" ++ [0]) ||
      data.startsWith (Bytes.ofText "MM" ++ [0] ++ Bytes.ofText "*") then
    some tiff
  else if data.startsWith (Bytes.ofText "RIFF") &&
      Bytes.startsWith (data.drop 8) (Bytes.ofText "WEBP") then
    some webp
  else none

end Format

end ImageDerivative
