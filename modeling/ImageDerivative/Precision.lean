/-! Numbers of single and of double precision: one as the other, and both as they are stored. -/
namespace ImageDerivative

/-- A number of single precision by its bits. Storage tells one NaN from another, which
arithmetic does not. -/
structure Binary32 where
  bits : UInt32
  deriving DecidableEq, Repr

namespace Binary32

def ofFloat (x : Float32) : Binary32 := ⟨x.toBits⟩

def toFloat (x : Binary32) : Float32 := .ofBits x.bits

end Binary32

structure Binary64 where
  bits : UInt64
  deriving DecidableEq, Repr

namespace Binary64

def ofFloat (x : Float) : Binary64 := ⟨x.toBits⟩

def toFloat (x : Binary64) : Float := .ofBits x.bits

end Binary64

namespace Precision

open Float.Model (UnpackedFloat)

/-- The number of a format that is nearest, and of two that are equally near the even one.
A number beyond the format's range is packed as an infinity. -/
def nearest (format : Float.Model.Format) : UnpackedFloat → UnpackedFloat
  | .finite sign mantissa exponent _ => .round format sign mantissa exponent
  | special => special

/-- The number of single precision nearest to `x`. -/
def narrow (x : Float) : Float32 := .ofModel (.pack (nearest .binary32 x.toModel.unpack))

/-- The number of double precision that is `x`. -/
def widen (x : Float32) : Float := .ofModel (.pack (nearest .binary64 x.toModel.unpack))

end Precision

end ImageDerivative
