import ImageDerivative.Container.GifScreen
import ImageDerivative.Container.JpegFrame
import ImageDerivative.Container.Png
import ImageDerivative.Container.TiffHeader
import ImageDerivative.Container.WebP

/-! The size of an image from the header that the name of its file promises. What the
contents are is not asked. -/
namespace ImageDerivative

/-- The format that the extension of a file stands for. -/
def Format.ofName? (path : Path) : Option Format :=
  match Path.lowerExtension path with
  | "gif" => some .gif
  | "jpg" | "jpeg" | "jfif" => some .jpeg
  | "png" | "apng" => some .png
  | "tif" | "tiff" => some .tiff
  | "webp" => some .webp
  | _ => none

namespace SizeProbe

/-- Where a header of this format ends too early, that is a failed read and not a
fault of the file. -/
def isReadInPlace : Format → Bool
  | .png | .tiff | .webp => true
  | .gif | .jpeg | .jpeg2000 => false

def readSize : Format → Read HeaderError (Nat × Nat)
  | .gif => Gif.Screen.readSize
  | .jpeg => Jpeg.readSize
  | .png => Png.readSize
  | .tiff => Tiff.readSize
  | .webp => WebP.readSize
  | .jpeg2000 => throw .refused

/-- Reads the header of the format that the name stands for. -/
def standard : SizeProbe := fun path data =>
  match Format.ofName? path with
  | none => .error .refused
  | some format =>
    match ((readSize format).onBytes data).1 with
    | .ok size => .ok size
    | .error .cutShort => .error (if isReadInPlace format then .cutShort else .refused)
    | .error .refused => .error .refused

end SizeProbe

end ImageDerivative
