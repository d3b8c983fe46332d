import ImageDerivative.Imaging.Kernel
import ImageDerivative.Precision

/-! The size of a derivative and the kernel that makes it. -/
namespace ImageDerivative

abbrev Size := Nat × Nat

/-- How the size of a derivative follows from that of its source. -/
inductive ScaleMode where
  | full
  /-- This width; the height keeps the aspect ratio. -/
  | width (target : Nat)
  /-- This height; the width keeps the aspect ratio. -/
  | height (target : Nat)
  /-- The largest size of the same aspect ratio inside a box. -/
  | fit (width height : Nat)
  | exact (width height : Nat)
  /-- A percentage of the source size. -/
  | percent (amount : Binary64)
  deriving DecidableEq, Repr

/-- The kernels to use where none is asked for. -/
structure KernelPolicy where
  downscale : Kernel := .box
  upscale : Kernel := .bicubic
  deriving DecidableEq, Repr

namespace Sizing

/-- The smaller of two numbers; a NaN gives way to the other. -/
def lesser (a b : Float) : Float :=
  if a.isNaN then b else if b.isNaN then a else if b < a then b else a

/-- The nearest of the numbers that 32 bits hold; what lies midway goes up. -/
def rounded (v : Float) : Nat :=
  let whole := v.toUInt32.toNat
  min (if 0.5 ≤ v - Float.ofNat whole then whole + 1 else whole) 0xffffffff

def toPixels (v : Float) : Nat := if v.isFinite then max (rounded v) 1 else 1

/-- The size before it is rounded. -/
def scaled (source : Size) (mode : ScaleMode) : Float × Float :=
  let w := Float.ofNat source.1
  let h := Float.ofNat source.2
  match mode with
  | .full => (w, h)
  | .width target => (Float.ofNat target, h * Float.ofNat target / w)
  | .height target => (w * Float.ofNat target / h, Float.ofNat target)
  | .fit width height =>
    let scale := lesser (Float.ofNat width / w) (Float.ofNat height / h)
    (w * scale, h * scale)
  | .exact width height => (Float.ofNat width, Float.ofNat height)
  | .percent amount => (w * amount.toFloat / 100.0, h * amount.toFloat / 100.0)

end Sizing

def resultingSize (source : Size) (mode : ScaleMode) : Size :=
  let (w, h) := Sizing.scaled source mode
  (Sizing.toPixels w, Sizing.toPixels h)

/-- One axis at least shrinks. -/
def isDownscale (source target : Size) : Bool := target.1 < source.1 || target.2 < source.2

/-- The kernel asked for, else the one the policy has for the direction. -/
def chooseKernel (requested : Option Kernel) (source target : Size) (policy : KernelPolicy) :
    Kernel :=
  requested.getD (if isDownscale source target then policy.downscale else policy.upscale)

end ImageDerivative
