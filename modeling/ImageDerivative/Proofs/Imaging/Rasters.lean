import ImageDerivative.Codec.Layout
import ImageDerivative.Proofs.Chains

/-! What it takes to make a bitmap, and where the samples of a raster stand: a pixel is a group
of samples in its row, and a row a group of them in the buffer. -/
namespace ImageDerivative

section Index

/-- A place in a row of `count` groups of `size` each. -/
theorem group_lt {group count size offset : Nat} (inside : group < count) (rest : offset < size) :
    group * size + offset < count * size := by
  have next := Nat.mul_le_mul_right size (Nat.succ_le_of_lt inside)
  rw [Nat.succ_mul] at next
  omega

theorem group_div {size offset : Nat} (group : Nat) (rest : offset < size) :
    (group * size + offset) / size = group := by
  rw [Nat.mul_comm, Nat.mul_add_div (Nat.zero_lt_of_lt rest), Nat.div_eq_of_lt rest, Nat.add_zero]

theorem group_mod {size offset : Nat} (group : Nat) (rest : offset < size) :
    (group * size + offset) % size = offset := by
  rw [Nat.mul_comm, Nat.mul_add_mod, Nat.mod_eq_of_lt rest]

end Index

namespace Bitmap

variable {bitmap : Bitmap} {width height channels : Nat} {samples : Array UInt8}

theorem bufferLength_eq (fits : Fits width height channels) :
    bufferLength width height channels = width * height * channels :=
  Nat.mod_eq_of_lt (Nat.lt_of_le_of_lt fits (by decide))

theorem checkChannels_ok (valid : 1 ≤ channels ∧ channels ≤ 4) :
    checkChannels channels = .ok ⟨valid⟩ := dif_pos valid

theorem ofSamples_ok_iff :
    ofSamples width height channels samples = .ok bitmap ↔
      bitmap.width = width ∧ bitmap.height = height ∧ bitmap.channels = channels ∧
        bitmap.interpretation = .gamma ∧ bitmap.samples = samples ∧
        samples.size = bufferLength width height channels := by
  constructor
  · intro made
    obtain ⟨⟨valid⟩, -, made⟩ := except_bind_eq_ok.mp made
    by_cases size : samples.size = bufferLength width height channels
    · simp only [if_pos size] at made
      cases made
      exact ⟨rfl, rfl, rfl, rfl, rfl, size⟩
    · simp only [if_neg size] at made
      cases made
  · obtain ⟨_, _, _, _, _, valid⟩ := bitmap
    rintro ⟨rfl, rfl, rfl, rfl, rfl, size⟩
    exact except_bind_eq_ok.mpr ⟨_, checkChannels_ok valid, if_pos size⟩

theorem zeros_ok_iff {length : Nat} :
    zeros length = .ok samples ↔ samples = Array.replicate length 0 ∧ length ≤ maxLength := by
  unfold zeros
  split
  next short => simp [short, eq_comm]
  next long => simp [long]

theorem blank_ok_iff :
    blank width height channels = .ok bitmap ↔
      bitmap.width = width ∧ bitmap.height = height ∧ bitmap.channels = channels ∧
        bitmap.interpretation = .gamma ∧
        bitmap.samples = Array.replicate (bufferLength width height channels) 0 ∧
        bufferLength width height channels ≤ maxLength := by
  constructor
  · intro made
    obtain ⟨_, _, made⟩ := except_bind_eq_ok.mp made
    obtain ⟨_, cleared, made⟩ := except_bind_eq_ok.mp made
    obtain ⟨rfl, short⟩ := zeros_ok_iff.mp cleared
    obtain ⟨w, h, c, tag, filled, -⟩ := ofSamples_ok_iff.mp (except_mapError_eq_ok.mp made)
    exact ⟨w, h, c, tag, filled, short⟩
  · rintro ⟨w, h, c, tag, filled, short⟩
    have valid : 1 ≤ channels ∧ channels ≤ 4 := c ▸ bitmap.channels_valid
    refine except_bind_eq_ok.mpr ⟨_, except_mapError_eq_ok.mpr (checkChannels_ok valid), ?_⟩
    refine except_bind_eq_ok.mpr ⟨_, zeros_ok_iff.mpr ⟨rfl, short⟩, ?_⟩
    exact except_mapError_eq_ok.mpr
      (ofSamples_ok_iff.mpr ⟨w, h, c, tag, filled, Array.size_replicate⟩)

/-- A size that fits into a buffer has a blank. -/
theorem blank_eq (fits : Fits width height channels) (valid : 1 ≤ channels ∧ channels ≤ 4) :
    blank width height channels = .ok (Raster.zeros width height valid .gamma).toBitmap := by
  have length := bufferLength_eq fits
  exact blank_ok_iff.mpr ⟨rfl, rfl, rfl, rfl, by rw [length]; rfl, length ▸ fits⟩

/-- Blanks that no buffer can hold are a panic. -/
theorem blank_panics (valid : 1 ≤ channels ∧ channels ≤ 4)
    (long : maxLength < bufferLength width height channels) :
    blank width height channels = .error (.panicked .capacity) := by
  have checked : (checkChannels channels).mapError RasterFault.refused = .ok ⟨valid⟩ :=
    except_mapError_eq_ok.mpr (checkChannels_ok valid)
  have stopped : zeros (bufferLength width height channels) = .error (.panicked .capacity) :=
    if_neg (Nat.not_le.mpr long)
  rw [blank, checked]
  exact congrArg (fun zeroed => zeroed >>= fun samples =>
    (ofSamples width height channels samples).mapError .refused) stopped

theorem whole?_eq_some_iff {raster : Raster} : bitmap.whole? = some raster ↔ raster.toBitmap = bitmap := by
  unfold whole?
  constructor
  · intro made
    split at made
    · cases made
      rfl
    · cases made
  · rintro rfl
    exact dif_pos raster.size_eq

end Bitmap

namespace Raster

variable {raster : Raster}

theorem toBitmap_inj {a b : Raster} (same : a.toBitmap = b.toBitmap) : a = b := by
  obtain ⟨_, _⟩ := a
  obtain ⟨_, _⟩ := b
  cases same
  rfl

theorem stride_whole (raster : Raster) :
    raster.samples.size = raster.height * raster.stride := by
  rw [raster.size_eq, Bitmap.stride, Nat.mul_comm raster.width, Nat.mul_assoc]

theorem sample_eq {x y channel : Nat} (left : x < raster.width) (above : y < raster.height)
    (within : channel < raster.channels) :
    raster.samples[(y * raster.width + x) * raster.channels + channel]? =
      some (raster.sample x y channel) := by
  have inside : (y * raster.width + x) * raster.channels + channel < raster.samples.size := by
    rw [raster.size_eq, Nat.mul_comm raster.width]
    exact group_lt (group_lt above left) within
  simp [Bitmap.sample, inside]

theorem row_le {y : Nat} (above : y < raster.height) :
    y * raster.stride + raster.stride ≤ raster.samples.size := by
  rw [raster.stride_whole, ← Nat.succ_mul]
  exact Nat.mul_le_mul_right _ above

theorem size_rowAt {y : Nat} (above : y < raster.height) :
    (raster.rowAt y).size = raster.stride := by
  rw [Bitmap.rowAt, Array.size_extract, Nat.min_eq_left (row_le above), Nat.add_sub_cancel_left]

/-- A row holds the samples of its pixels, channel by channel. -/
theorem rowAt_sample {x y channel : Nat} (left : x < raster.width) (above : y < raster.height)
    (within : channel < raster.channels) :
    (raster.rowAt y)[x * raster.channels + channel]? = some (raster.sample x y channel) := by
  have inRow : x * raster.channels + channel < raster.stride := group_lt left within
  have place : y * raster.stride + (x * raster.channels + channel) =
      (y * raster.width + x) * raster.channels + channel := by
    rw [Bitmap.stride, Nat.add_mul, Nat.mul_assoc, Nat.add_assoc]
  have inside := row_le above
  rw [Bitmap.rowAt, Array.getElem?_extract, place, sample_eq left above within, if_pos (by omega)]

end Raster

end ImageDerivative
