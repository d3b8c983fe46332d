import ImageDerivative.Codec.Gif
import ImageDerivative.Codec.Jpeg
import ImageDerivative.Codec.Png
import ImageDerivative.Codec.Tiff
import ImageDerivative.Codec.WebP
import ImageDerivative.Container.SizeProbe
import ImageDerivative.Imaging.Recipe

/-! Codecs turn rasters into files and back. The contents of a file decide how it is
decoded; its name has a say only in how its size is found. -/
namespace ImageDerivative

structure Codecs where
  probe : SizeProbe
  decode? : Bytes → Option Raster
  encode? : Format → Quality → Raster → Option Bytes

namespace Codecs

def decodeStandard? (data : Bytes) : Option Raster :=
  match Format.detect? data with
  | some .png => Png.decode? data
  | some .tiff => Tiff.decode? data
  | some .webp => WebP.decode? data
  | some .jpeg => Jpeg.decode? data
  | some .gif => Gif.decode? data
  | some .jpeg2000 | none => none

/-- Nothing is compressed with a loss, so that the quality has no effect. -/
def encodeStandard? (format : Format) (_quality : Quality) (raster : Raster) : Option Bytes :=
  match format with
  | .png => Png.encode? raster
  | .tiff => Tiff.encode? raster
  | .webp => WebP.encode? raster
  | .jpeg => Jpeg.encode? raster
  | .gif => Gif.encode? raster
  | .jpeg2000 => none

def standard : Codecs := ⟨SizeProbe.standard, decodeStandard?, encodeStandard?⟩

end Codecs

end ImageDerivative
