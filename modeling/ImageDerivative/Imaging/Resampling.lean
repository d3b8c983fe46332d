import ImageDerivative.Imaging.Contributions
import ImageDerivative.Imaging.Unsharp

/-! Resampling to a fixed size in two passes. The first brings every source row to
the destination width and rounds to bytes; the second makes each destination row
from the rows of that intermediate. An unsharp mask may follow. Buffers have all samples
that their sizes ask for: a target that a word cannot count has tables of billions of
entries, and is not cut to the word here. -/
namespace ImageDerivative

structure Resampling (F : Type) where
  width : Nat
  height : Nat
  kernel : Kernel
  /-- Whether a new destination is tagged as linear light. -/
  linear : Bool
  unsharp : F

namespace Resampling

variable {F : Type} [Single F]

/-- The entries of a destination index; a table that has none is read out of range. -/
def entriesAt (table : Contributions F) (index : Nat) : Except Panic (List (Nat × F)) :=
  match table.entries? index with
  | some entries => .ok entries
  | none => .error (outOfRange index table.offsets.size)

/-- Row `y` of the source at the width of the table. -/
def horizontalRow (source : Raster) (table : Contributions F) (rowLength : Nat) :
    RowWork rowLength :=
  fun y _ => do
    let row := source.rowAt y
    Vector.ofFnM fun s => do
      let entries ← entriesAt table (s.val / source.channels)
      let terms := entries.map fun (x, weight) =>
        (x * source.channels + s.val % source.channels, weight)
      return toByte (← weightedSum row terms)

/-- Row `y` of the destination, each sample from the samples above and below it. -/
def verticalRow (work : Array UInt8) (table : Contributions F) (rowLength : Nat) :
    RowWork rowLength :=
  fun y _ => do
    let entries ← entriesAt table y
    Vector.ofFnM fun s => do
      let terms := entries.map fun (r, weight) => (r * rowLength + s.val, weight)
      return toByte (← weightedSum work terms)

/-- A new raster of the target's size. -/
def fresh (op : Resampling F) (channels : Nat) : Except ResampleError Raster := do
  let ⟨valid⟩ ← Bitmap.checkChannels channels
  return .zeros op.width op.height valid (.ofLinear op.linear)

/-- The raster that is written: a given one of the right size, else a new one. -/
def destination (op : Resampling F) (channels : Nat) (given : Option Raster) :
    Except ResampleError Raster := do
  match given with
  | none => op.fresh channels
  | some raster =>
    if raster.dimensions ≠ (op.width, op.height) then op.fresh channels
    else if raster.channels ≠ channels then throw (.channelMismatch channels raster.channels)
    else return raster

/-- Resamples `source`, into `given` if that has the size of the target. -/
def run (op : Resampling F) (source : Raster) (given : Option Raster) (pool : WorkerPool) :
    Except ResampleError Raster := do
  if op.width < ResampleError.minTarget ∨ op.height < ResampleError.minTarget then
    throw (.targetTooSmall op.width op.height)
  if source.width = 0 ∨ source.height = 0 then
    throw (.emptySource source.width source.height)
  let out ← op.destination source.channels given
  let horizontal : Contributions F := .build op.kernel source.width op.width
  let vertical : Contributions F := .build op.kernel source.height op.height
  let stride := op.width * source.channels
  let work ← pool.forEachRow 0 (Vector.replicate (source.height * stride) 0) stride
    (horizontalRow source horizontal stride)
  let samples ← pool.forEachRow 1 out.toVector stride (verticalRow work.toArray vertical stride)
  (UnsharpMask.ofAmount op.unsharp).apply (out.withSamples samples) pool 2

end Resampling

end ImageDerivative
