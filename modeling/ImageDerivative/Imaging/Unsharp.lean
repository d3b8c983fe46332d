import ImageDerivative.Imaging.Raster
import ImageDerivative.Imaging.Single
import ImageDerivative.Imaging.WorkerPool

/-! Unsharp masking. The raster is blurred with a Gaussian, along the rows and
then along the columns, with indices kept inside the edges. A color sample that
differs from its blurred counterpart by the threshold or more is pushed away from
it; alpha stays as it is. -/
namespace ImageDerivative

variable {F : Type} [Single F]

open Single

def toByte (v : F) : UInt8 :=
  if lt v 0.0 then 0
  else if lt 255.0 v then 255
  else UInt8.ofNat (min (max (toInt (v + 0.5)) 0) 255).toNat

/-- A read of a sample that is not there. -/
def outOfRange (index length : Nat) : Panic :=
  .text s!"index out of bounds: the len is {length} but the index is {index}"

def sampleAt (samples : Array UInt8) (index : Nat) : Except Panic UInt8 :=
  match samples[index]? with
  | some sample => .ok sample
  | none => .error (outOfRange index samples.size)

/-- The sum, from left to right, of the weighted samples at the given indices. -/
def weightedSum (samples : Array UInt8) (terms : List (Nat × F)) : Except Panic F :=
  terms.foldlM (fun total (index, weight) => do
    return total + ofNat (← sampleAt samples index).toNat * weight) 0.0

structure UnsharpMask (F : Type) where
  amount : F
  radius : F
  threshold : Nat

namespace UnsharpMask

/-- The mask of an amount, with radius 2 and threshold 10. -/
def ofAmount (amount : F) : UnsharpMask F := { amount, radius := 2.0, threshold := 10 }

/-- Amounts within this distance of zero are no sharpening. -/
def minAmount : F := 0.0001

def hasEffect (mask : UnsharpMask F) : Bool := lt minAmount (abs mask.amount)

/-- The smallest deviation of a Gaussian: the distance of 1 to the next number. -/
def minSigma : F := 0.00000011920929

/-- The integer part, kept within 32 bits; zero for a NaN. -/
def toInt32 (v : F) : Int := max (-0x80000000) (min (toInt v) 0x7fffffff)

/-- A square, cut to 32 bits as in a build without overflow checks. -/
def square32 (d : Int) : Int := (d * d).bmod 0x100000000

/-- The taps of a Gaussian before they are divided by their sum. Taps whose squared distance
from the center is more than that of the radius are zero. -/
def rawTaps (radius : F) : List F :=
  let reach := toInt32 (Single.max (ceil radius) 0.0)
  let sigma := Single.max (radius / 3.0) minSigma
  let sigma22 := 2.0 * sigma * sigma
  let root := sqrt (2.0 * pi * sigma)
  let radius2 := radius * radius
  (List.range (2 * reach + 1).toNat).map fun k =>
    let d := Int.ofNat k - reach
    let distance : F := ofInt (square32 d)
    if lt radius2 distance then 0.0 else exp (-distance / sigma22) / root

/-- A Gaussian of `2 * ⌈radius⌉ + 1` taps that add up to one. -/
def gaussian (radius : F) : List F :=
  let taps := rawTaps radius
  let total := sum taps
  if lt 0.0 total then taps.map fun tap => tap / total else taps

/-- The terms of a blur at position `at`: the taps, over indices from 0 to `last`. -/
def blurTerms (taps : List F) (last position : Nat) : List (Nat × F) :=
  taps.zipIdx.map fun (tap, k) => (min (position + k - taps.length / 2) last, tap)

def blurRow (bitmap : Bitmap) (taps : List F) : RowWork bitmap.stride := fun y _ => do
  let row := bitmap.rowAt y
  Vector.ofFnM fun s => do
    let x := s.val / bitmap.channels
    let terms := (blurTerms taps (row.size / bitmap.channels - 1) x).map fun (sx, tap) =>
      (sx * bitmap.channels + s.val % bitmap.channels, tap)
    return toByte (← weightedSum row terms)

def blurColumns (samples : Array UInt8) (height stride : Nat) (taps : List F) : RowWork stride :=
  fun y _ => Vector.ofFnM fun s => do
    let terms := (blurTerms taps (height - 1) y).map fun (sy, tap) => (sy * stride + s.val, tap)
    return toByte (← weightedSum samples terms)

/-- A sample pushed away from its blurred counterpart. -/
def sharpenSample (mask : UnsharpMask F) (value blurred : UInt8) : UInt8 :=
  let difference : Int := value.toNat - blurred.toNat
  if difference.natAbs < mask.threshold then value
  else
    let v := (mask.amount + 1.0) * ofInt difference + ofNat blurred.toNat
    UInt8.ofNat (min (max (toInt v) 0) 255).toNat

def sharpenRow (mask : UnsharpMask F) (bitmap : Bitmap) (blurred : Array UInt8) :
    RowWork bitmap.stride := fun y row =>
  Vector.ofFnM fun s => do
    let blur ← sampleAt blurred (y * bitmap.stride + s.val)
    return if s.val % bitmap.channels < bitmap.colorChannels then mask.sharpenSample row[s] blur
      else row[s]

/-- The sharpened samples of a bitmap, made in three passes that the pool numbers from `pass`
on. -/
def samplesOf (mask : UnsharpMask F) (bitmap : Bitmap) (pool : WorkerPool) (pass : Nat) :
    Except ResampleError (Vector UInt8 bitmap.samples.size) := do
  if !mask.hasEffect || bitmap.samples.isEmpty then return bitmap.toVector
  let taps := gaussian mask.radius
  let clear := Vector.replicate bitmap.samples.size 0
  let horizontal ← pool.forEachRow pass clear bitmap.stride (blurRow bitmap taps)
  let blurred ← pool.forEachRow (pass + 1) clear bitmap.stride
    (blurColumns horizontal.toArray bitmap.height bitmap.stride taps)
  pool.forEachRow (pass + 2) bitmap.toVector bitmap.stride
    (mask.sharpenRow bitmap blurred.toArray)

def apply (mask : UnsharpMask F) (raster : Raster) (pool : WorkerPool) (pass : Nat) :
    Except ResampleError Raster := do
  return raster.withSamples (← mask.samplesOf raster.toBitmap pool pass)

end UnsharpMask

end ImageDerivative
