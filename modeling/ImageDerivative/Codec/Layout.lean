import ImageDerivative.Imaging.Raster

/-! What formats ask of a bitmap: a size within their limits, and the same picture in
other channels where they know only some of them. -/
namespace ImageDerivative.Bitmap

/-- The bitmap has pixels, and no axis is longer than `limit`. -/
def hasAxesUpTo (bitmap : Bitmap) (limit : Nat) : Bool :=
  0 < bitmap.width && bitmap.width ≤ limit && 0 < bitmap.height && bitmap.height ≤ limit

def sample (bitmap : Bitmap) (x y k : Nat) : UInt8 :=
  (bitmap.samples[(y * bitmap.width + x) * bitmap.channels + k]?).getD 0

def fullAlpha : UInt8 := 255

/-- Red, green, blue and alpha; gray becomes three times the same. -/
def toRgba (bitmap : Bitmap) : Except RasterFault Bitmap :=
  ofPixels bitmap.width bitmap.height 4 fun x y =>
    let s := bitmap.sample x y
    match bitmap.channels with
    | 1 => #v[s 0, s 0, s 0, fullAlpha]
    | 2 => #v[s 0, s 0, s 0, s 1]
    | 3 => #v[s 0, s 1, s 2, fullAlpha]
    | _ => #v[s 0, s 1, s 2, s 3]

/-- The color channels. -/
def dropAlpha (bitmap : Bitmap) : Except RasterFault Bitmap :=
  ofPixels bitmap.width bitmap.height bitmap.colorChannels fun x y =>
    Vector.ofFn fun k => bitmap.sample x y k.val

end ImageDerivative.Bitmap
