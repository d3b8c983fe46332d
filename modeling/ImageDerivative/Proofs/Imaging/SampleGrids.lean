import ImageDerivative.Proofs.Imaging.TwoPass

/-! Flat buffers as images given sample by sample. A raster is known by the image it holds, and
a pass over a buffer by the image whose rows it makes. -/
namespace ImageDerivative

/-- The samples are those of `image`: rows from top to bottom, pixels from left to right, the
channels of a pixel side by side. -/
def Holds (samples : Array UInt8) (width height channels : Nat) (image : SampleGrid) : Prop :=
  ∀ x < width, ∀ y < height, ∀ channel < channels,
    samples[(y * width + x) * channels + channel]? = some (image x y channel)

namespace Holds

variable {samples : Array UInt8} {width height channels : Nat} {image : SampleGrid}

/-- A sample by its row and its place in it. -/
theorem inRow (holds : Holds samples width height channels image) {y s : Nat} (above : y < height)
    (left : s < width * channels) :
    samples[y * (width * channels) + s]? = some (image (s / channels) y (s % channels)) := by
  have some : 0 < channels := Nat.pos_of_mul_pos_left (Nat.zero_lt_of_lt left)
  have pixel : s / channels < width := (Nat.div_lt_iff_lt_mul some).mpr left
  have place : y * (width * channels) + s =
      (y * width + s / channels) * channels + s % channels := by
    rw [Nat.add_mul, Nat.mul_assoc, Nat.add_assoc, Nat.mul_comm (s / channels), Nat.div_add_mod]
  rw [place]
  exact holds _ pixel y above _ (Nat.mod_lt s some)

theorem of_rows
    (rows : ∀ y < height, ∀ s < width * channels,
      samples[y * (width * channels) + s]? = some (image (s / channels) y (s % channels))) :
    Holds samples width height channels image := by
  intro x left y above channel within
  have place : (y * width + x) * channels + channel =
      y * (width * channels) + (x * channels + channel) := by
    rw [Nat.add_mul, Nat.mul_assoc, Nat.add_assoc]
  have sample := rows y above _ (group_lt left within)
  rw [group_div x within, group_mod x within] at sample
  rw [place]
  exact sample

theorem congr {other : SampleGrid} (holds : Holds samples width height channels image)
    (same : ∀ x y, ∀ channel < channels, image x y channel = other x y channel) :
    Holds samples width height channels other := by
  intro x left y above channel within
  rw [← same x y channel within]
  exact holds x left y above channel within

/-- The rows that a pass over the buffer is given. -/
theorem rowsOf {length : Nat} {buffer : Vector UInt8 length}
    (holds : Holds buffer.toArray width height channels image)
    (whole : length = height * (width * channels)) {y : Nat} (above : y < height)
    (s : Fin (width * channels)) :
    (ImageDerivative.rowsOf (width * channels) height (buffer.cast whole))[y][s] =
      image (s.val / channels) y (s.val % channels) := by
  have sample := holds.inRow above s.isLt
  obtain ⟨inside, same⟩ := Array.getElem?_eq_some_iff.mp sample
  rw [← same]
  simp [ImageDerivative.rowsOf]

/-- An image has one buffer. -/
theorem unique {other : Array UInt8} (size : samples.size = width * height * channels)
    (also : other.size = width * height * channels)
    (holds : Holds samples width height channels image)
    (again : Holds other width height channels image) : samples = other := by
  apply Array.ext (size.trans also.symm)
  intro i inside there
  have bound : i < height * (width * channels) := by
    rw [← Nat.mul_assoc, Nat.mul_comm height, ← size]
    exact inside
  have stride : 0 < width * channels := Nat.pos_of_mul_pos_left (Nat.zero_lt_of_lt bound)
  have above : i / (width * channels) < height := (Nat.div_lt_iff_lt_mul stride).mpr bound
  have left : i % (width * channels) < width * channels := Nat.mod_lt i stride
  have whole : i / (width * channels) * (width * channels) + i % (width * channels) = i := by
    rw [Nat.mul_comm, Nat.div_add_mod]
  have same := (holds.inRow above left).trans (again.inRow above left).symm
  rw [whole, Array.getElem?_eq_getElem inside, Array.getElem?_eq_getElem there] at same
  exact Option.some.inj same

end Holds

namespace Raster

theorem holds (raster : Raster) :
    Holds raster.samples raster.width raster.height raster.channels raster.sample :=
  fun _ left _ above _ within => sample_eq left above within

end Raster

/-- A pass whose rows are those of an image fills the buffer with it, whatever the pool. -/
theorem WorkerPool.forEachRow_holds {width height channels length : Nat}
    (buffer : Vector UInt8 length) (work : RowWork (width * channels)) (image : SampleGrid)
    (pos : 0 < width * channels) (whole : length = height * (width * channels))
    (works : ∀ y (h : y < height), work y (rowsOf _ height (buffer.cast whole))[y] =
      .ok (Vector.ofFn fun s => image (s.val / channels) y (s.val % channels))) :
    ∃ filled : Vector UInt8 length, Holds filled.toArray width height channels image ∧
      ∀ (pool : WorkerPool) pass,
        pool.forEachRow pass buffer (width * channels) work = .ok filled := by
  refine ⟨_, ?_, fun pool pass => pool.forEachRow_ok pass buffer work
    (fun y => Vector.ofFn fun s => image (s.val / channels) y (s.val % channels)) pos whole works⟩
  apply Holds.of_rows
  intro y above s left
  exact Resampling.flatten_rows (fun y s => image (s / channels) y (s % channels)) whole.symm
    above left

end ImageDerivative
