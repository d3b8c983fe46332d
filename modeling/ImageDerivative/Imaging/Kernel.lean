import ImageDerivative.Imaging.Single
import ImageDerivative.Text.Blank

/-! Interpolation kernels. A kernel weighs a source pixel by its signed distance
from the center of a destination sample and is zero outside its radius. -/
namespace ImageDerivative

inductive Kernel where
  | bell
  | bicubic
  /-- Cubic convolution with `a = -1`: sharper, with more ringing. -/
  | bicubicHighFreq
  | box
  | bspline
  | hermite
  | lanczos3
  | mitchell
  | triangle
  deriving DecidableEq, Repr

namespace Kernel

instance : Inhabited Kernel := ⟨lanczos3⟩

def all : List Kernel :=
  [bell, bicubic, bicubicHighFreq, box, bspline, hermite, lanczos3, mitchell, triangle]

/-- The name in settings and on the command line. -/
def name : Kernel → String
  | bell => "bell"
  | bicubic => "bicubic"
  | bicubicHighFreq => "bicubic-high-freq"
  | box => "box"
  | bspline => "bspline"
  | hermite => "hermite"
  | lanczos3 => "lanczos3"
  | mitchell => "mitchell"
  | triangle => "triangle"

def displayName : Kernel → String
  | bell => "Bell"
  | bicubic => "Bicubic"
  | bicubicHighFreq => "Bicubic (high frequency)"
  | box => "Box"
  | bspline => "B-Spline"
  | hermite => "Hermite"
  | lanczos3 => "Lanczos3"
  | mitchell => "Mitchell"
  | triangle => "Triangle"

def ofName? (name : String) : Option Kernel := all.find? fun kernel => kernel.name = name

theorem ofName?_name (kernel : Kernel) : ofName? kernel.name = some kernel := by
  cases kernel <;> rfl

/-- Other names that a reader of names accepts. -/
def canonicalName : String → String
  | "b-spline" => "bspline"
  | "lanczos" => "lanczos3"
  | "bilinear" => "triangle"
  | name => name

structure UnknownName where
  name : String
  deriving DecidableEq, Repr

def UnknownName.message (e : UnknownName) : String :=
  "unknown filter '" ++ e.name ++ "' (expected one of: " ++
    String.intercalate ", " (all.map Kernel.name) ++ ")"

/-- Reads a name as people write it: blanks around it, capital letters and the
other names are accepted. -/
def parse (text : String) : Except UnknownName Kernel :=
  match ofName? (canonicalName (Text.trim text).toLower) with
  | some kernel => .ok kernel
  | none => .error ⟨text⟩

section Weight

variable {F : Type} [Single F]

open Single

/-- The distance in source pixels from which on the weight is zero. -/
def radius : Kernel → F
  | box => 0.5
  | triangle | hermite => 1.0
  | bell => 1.5
  | bspline | bicubic | bicubicHighFreq | mitchell => 2.0
  | lanczos3 => 3.0

/-- `sin x / x`, where `x` is already a multiple of pi and is not zero. -/
def sincScaled (x : F) : F := sin x / x

/-- Cubic convolution with the free parameter `a`. -/
def cubicConvolution (x a : F) : F :=
  let x := abs x
  let xx := x * x
  if lt x 1.0 then (a + 2.0) * xx * x - (a + 3.0) * xx + 1.0
  else if lt x 2.0 then a * xx * x - 5.0 * a * xx + 8.0 * a * x - 4.0 * a
  else 0.0

/-- The two-parameter family of piecewise cubic kernels. -/
def piecewiseCubic (x b c : F) : F :=
  let x := abs x
  let xx := x * x
  if lt x 1.0 then
    ((12.0 - 9.0 * b - 6.0 * c) * xx * x + (-18.0 + 12.0 * b + 6.0 * c) * xx
      + (6.0 - 2.0 * b)) / 6.0
  else if lt x 2.0 then
    ((-b - 6.0 * c) * xx * x + (6.0 * b + 30.0 * c) * xx + (-12.0 * b - 48.0 * c) * x
      + (8.0 * b + 24.0 * c)) / 6.0
  else 0.0

def weight (kernel : Kernel) (x : F) : F :=
  match kernel with
  | box => if lt (-0.5) x && le x 0.5 then 1.0 else 0.0
  | triangle =>
    let x := abs x
    if lt x 1.0 then 1.0 - x else 0.0
  | hermite =>
    let x := abs x
    if lt x 1.0 then (2.0 * x - 3.0) * x * x + 1.0 else 0.0
  | bell =>
    let x := abs x
    if lt x 0.5 then 0.75 - x * x
    else if lt x 1.5 then
      let t := x - 1.5
      0.5 * t * t
    else 0.0
  | bspline =>
    let x := abs x
    if lt x 1.0 then
      let xx := x * x
      0.5 * xx * x - xx + 2.0 / 3.0
    else if lt x 2.0 then
      let t := 2.0 - x
      t * t * t / 6.0
    else 0.0
  | bicubic => cubicConvolution x (-0.5)
  | bicubicHighFreq => cubicConvolution x (-1.0)
  | mitchell => piecewiseCubic x (1.0 / 3.0) (1.0 / 3.0)
  | lanczos3 =>
    if eq x 0.0 then 1.0
    else
      let x := abs x
      if lt x 3.0 then
        let px := x * pi
        sincScaled px * sincScaled (px / 3.0)
      else 0.0

end Weight

end Kernel

end ImageDerivative
