import Mathlib
import ImageDerivative.Imaging.Resampling
import ImageDerivative.Proofs.Imaging.ContributionRows
import ImageDerivative.Proofs.Imaging.Rasters
import ImageDerivative.Proofs.Imaging.RowPass

/-! Resampling against a reference that knows no buffer, no pool and no
destination: every sample is a weighted sum of samples of an intermediate image,
each of which is a weighted sum of samples of the source. -/
namespace ImageDerivative

abbrev SampleGrid := (x y channel : Nat) → UInt8

variable {F : Type} [Single F]

open Single

/-- The sum from left to right of the samples at the positions of `entries`, each
multiplied by its weight. -/
def weighed (entries : List (Nat × F)) (sample : Nat → UInt8) : F :=
  entries.foldl (fun total entry => total + ofNat (sample entry.1).toNat * entry.2) 0.0

/-- Indices that are all inside their array are summed without a panic. -/
theorem weightedSum_ok (samples : Array UInt8) (sample : Nat → UInt8) (place : Nat → Nat)
    (entries : List (Nat × F))
    (reads : ∀ entry ∈ entries, samples[place entry.1]? = some (sample entry.1)) :
    weightedSum samples (entries.map fun entry => (place entry.1, entry.2)) =
      .ok (weighed entries sample) := by
  have sums : ∀ total : F,
      (entries.map fun entry => (place entry.1, entry.2)).foldlM (fun total entry => do
        return total + ofNat (← sampleAt samples entry.1).toNat * entry.2) total =
      (Except.ok (entries.foldl (fun total entry =>
        total + ofNat (sample entry.1).toNat * entry.2) total) : Except Panic F) := by
    induction entries with
    | nil => intro total; rfl
    | cons entry rest ih =>
      intro total
      have here := reads entry List.mem_cons_self
      have there := ih fun entry member => reads entry (List.mem_cons_of_mem _ member)
      simp only [List.map_cons, List.foldlM_cons, sampleAt, here, List.foldl_cons]
      exact there _
  exact sums 0.0

/-- The row that a worker makes sample by sample without a panic. -/
theorem ofFnM_ok {ε α : Type} {n : Nat} {make : Fin n → Except ε α} (made : Fin n → α)
    (each : ∀ i, make i = .ok (made i)) : Vector.ofFnM make = .ok (Vector.ofFn made) := by
  induction n with
  | zero => simp [Vector.ofFnM_zero, pure, Except.pure]
  | succ n ih =>
    have before := ih (fun i => made i.castSucc) fun i => each i.castSucc
    rw [Vector.ofFnM_succ, before, each (Fin.last n), Vector.ofFn_succ]
    rfl

namespace Contributions

def row (table : Contributions F) (index : Nat) : List (Nat × F) := (table.entries? index).getD []

theorem entriesAt_build (kernel : Kernel) {source destination index : Nat}
    (inside : index < destination) :
    Resampling.entriesAt (build kernel source destination : Contributions F) index =
      .ok ((build kernel source destination : Contributions F).row index) := by
  rw [Resampling.entriesAt, row, entries?_build kernel inside, Option.getD_some]

theorem row_build_lt (kernel : Kernel) {source destination index : Nat} (pos : 0 < source)
    (inside : index < destination) :
    ∀ entry ∈ (build kernel source destination : Contributions F).row index, entry.1 < source := by
  rw [row, entries?_build kernel inside, Option.getD_some]
  exact rowOf_lt kernel pos destination index

end Contributions

namespace Resampling

/-- An image brought from one width to another. -/
def alongRows (F : Type) [Single F] (kernel : Kernel) (source destination : Nat)
    (image : SampleGrid) : SampleGrid := fun x y channel =>
  toByte (weighed ((Contributions.build kernel source destination : Contributions F).row x)
    fun p => image p y channel)

def alongColumns (F : Type) [Single F] (kernel : Kernel) (source destination : Nat)
    (image : SampleGrid) : SampleGrid := fun x y channel =>
  toByte (weighed ((Contributions.build kernel source destination : Contributions F).row y)
    fun r => image x r channel)

/-- The resampled image: the rows first, rounded to bytes, then the columns. -/
def reference (F : Type) [Single F] (kernel : Kernel) (source destination : Nat × Nat)
    (image : SampleGrid) : SampleGrid :=
  alongColumns F kernel source.2 destination.2
    (alongRows F kernel source.1 destination.1 image)

theorem horizontalRow_ok (kernel : Kernel) {source : Raster} {width y : Nat}
    (wide : 0 < source.width) (above : y < source.height)
    (old : Vector UInt8 (width * source.channels)) :
    horizontalRow source (.build kernel source.width width : Contributions F)
        (width * source.channels) y old =
      .ok (Vector.ofFn fun s => alongRows F kernel source.width width source.sample
        (s.val / source.channels) y (s.val % source.channels)) := by
  refine ofFnM_ok _ fun s => ?_
  have channels : 0 < source.channels := source.channels_valid.1
  have pixel : s.val / source.channels < width :=
    (Nat.div_lt_iff_lt_mul channels).mpr s.isLt
  have channel : s.val % source.channels < source.channels := Nat.mod_lt _ channels
  have total := weightedSum_ok (source.rowAt y)
    (fun p => source.sample p y (s.val % source.channels))
    (fun x => x * source.channels + s.val % source.channels)
    ((Contributions.build kernel source.width width : Contributions F).row
      (s.val / source.channels))
    (fun entry member => Raster.rowAt_sample
      (Contributions.row_build_lt kernel wide pixel entry member) above channel)
  rw [Contributions.entriesAt_build kernel pixel]
  simp only [bind, Except.bind, total, pure, Except.pure, alongRows]

theorem verticalRow_ok (kernel : Kernel) {work : Array UInt8} (image : SampleGrid) (channels : Nat)
    {sourceHeight height y rowLength : Nat} (high : 0 < sourceHeight) (above : y < height)
    (holds : ∀ r < sourceHeight, ∀ s < rowLength,
      work[r * rowLength + s]? = some (image (s / channels) r (s % channels)))
    (old : Vector UInt8 rowLength) :
    verticalRow work (.build kernel sourceHeight height : Contributions F) rowLength y old =
      .ok (Vector.ofFn fun s => alongColumns F kernel sourceHeight height image
        (s.val / channels) y (s.val % channels)) := by
  rw [verticalRow, Contributions.entriesAt_build kernel above]
  refine ofFnM_ok _ fun s => ?_
  have total := weightedSum_ok work (fun r => image (s.val / channels) r (s.val % channels))
    (fun r => r * rowLength + s.val)
    ((Contributions.build kernel sourceHeight height : Contributions F).row y)
    (fun entry member => holds entry.1
      (Contributions.row_build_lt kernel high above entry member) s.val s.isLt)
  simp only [bind, Except.bind, total, pure, Except.pure, alongColumns]

/-- The samples of rows laid end to end. -/
theorem flatten_rows {rows rowLength length : Nat} (made : Nat → Nat → UInt8)
    (whole : rows * rowLength = length) {y s : Nat} (above : y < rows) (left : s < rowLength) :
    ((Vector.ofFn fun y : Fin rows => (Vector.ofFn fun s : Fin rowLength =>
      made y s)).flatten.cast whole).toArray[y * rowLength + s]? = some (made y s) := by
  have inside : y * rowLength + s < rows * rowLength := group_lt above left
  simp [inside, group_div y left, group_mod y left]

omit [Single F] in
theorem destination_ok (op : Resampling F) {channels : Nat} {given : Option Raster}
    (valid : 1 ≤ channels ∧ channels ≤ 4)
    (fits : ∀ raster ∈ given, raster.dimensions = (op.width, op.height) →
      raster.channels = channels) :
    ∃ out, op.destination channels given = .ok out ∧
      out.width = op.width ∧ out.height = op.height ∧ out.channels = channels := by
  have fresh : ∃ out, op.fresh channels = .ok out ∧
      out.width = op.width ∧ out.height = op.height ∧ out.channels = channels :=
    ⟨_, except_bind_eq_ok.mpr ⟨_, Bitmap.checkChannels_ok valid, rfl⟩, rfl, rfl, rfl⟩
  cases given with
  | none => exact fresh
  | some raster =>
    by_cases same : raster.dimensions = (op.width, op.height)
    · have equal := fits raster rfl same
      refine ⟨raster, ?_, congrArg Prod.fst same, congrArg Prod.snd same, equal⟩
      simp [destination, same, equal, pure, Except.pure]
    · simpa [destination, same] using fresh

section

variable {op : Resampling F} {source out : Raster} {given : Option Raster} {pool : WorkerPool}
  {work : Vector UInt8 (source.height * (op.width * source.channels))}
  {samples : Vector UInt8 out.samples.size}

/-- A run is its two passes, and what is sharpened of them. -/
theorem run_eq_apply
    (large : 3 ≤ op.width ∧ 3 ≤ op.height) (some : 0 < source.width ∧ 0 < source.height)
    (chosen : op.destination source.channels given = .ok out)
    (first : pool.forEachRow 0 (Vector.replicate _ 0) (op.width * source.channels)
      (horizontalRow source (.build op.kernel source.width op.width : Contributions F)
        (op.width * source.channels)) = .ok work)
    (second : pool.forEachRow 1 out.toVector (op.width * source.channels)
      (verticalRow work.toArray (.build op.kernel source.height op.height : Contributions F)
        (op.width * source.channels)) = .ok samples) :
    op.run source given pool =
      (UnsharpMask.ofAmount op.unsharp).apply (out.withSamples samples) pool 2 := by
  have target : ¬ (op.width < ResampleError.minTarget ∨ op.height < ResampleError.minTarget) := by
    simp only [ResampleError.minTarget]
    omega
  have grid : ¬ (source.width = 0 ∨ source.height = 0) := by omega
  simp only [run, target, grid, if_false, chosen, bind, Except.bind, first, second]

end

end Resampling

end ImageDerivative
