import ImageDerivative.Proofs.Imaging.SampleGrids

/-! Three views of one buffer: the pixels, the rows and the samples of a raster. The pixels
divide the buffer among them, in rows from top to bottom, and a raster is made of its pixels
and of nothing else. That a bitmap is a raster holds as long as a buffer can hold it. -/
namespace ImageDerivative

section

variable {α : Type} {part : Nat → List α} {n length : Nat}

theorem length_flatMap_range (even : ∀ i < n, (part i).length = length) :
    ((List.range n).flatMap part).length = n * length := by
  induction n with
  | zero => rw [List.range_zero, List.flatMap_nil, List.length_nil, Nat.zero_mul]
  | succ n ih =>
    rw [List.range_succ, List.flatMap_append, List.length_append, List.flatMap_singleton,
      ih fun i inside => even i (Nat.lt_succ_of_lt inside), even n (Nat.lt_succ_self n),
      Nat.succ_mul]

theorem getElem?_flatMap_range (even : ∀ i < n, (part i).length = length) {i k : Nat}
    (inside : i < n) (within : k < length) :
    ((List.range n).flatMap part)[i * length + k]? = (part i)[k]? := by
  induction n with
  | zero => exact absurd inside (Nat.not_lt_zero i)
  | succ n ih =>
    have before := fun i (inside : i < n) => even i (Nat.lt_succ_of_lt inside)
    have first := length_flatMap_range before
    rw [List.range_succ, List.flatMap_append, List.flatMap_singleton]
    rcases Nat.lt_succ_iff_lt_or_eq.mp inside with earlier | rfl
    · rw [List.getElem?_append_left (by rw [first]; exact group_lt earlier within)]
      exact ih before earlier
    · rw [List.getElem?_append_right (by rw [first]; exact Nat.le_add_right _ _), first,
        Nat.add_sub_cancel_left]

/-- A part of an array, found sample by sample. -/
theorem extract_eq_toArray {samples : Array UInt8} {start count : Nat} {part : List UInt8}
    (length : part.length = count) (stands : ∀ k < count, samples[start + k]? = part[k]?) :
    samples.extract start (start + count) = part.toArray := by
  apply Array.ext_getElem?
  intro k
  have same : part.toArray[k]? = part[k]? := List.getElem?_toArray
  rw [Array.getElem?_extract, same]
  by_cases within : k < count
  · have found := (stands k within).trans (List.getElem?_eq_getElem (length ▸ within))
    have inside := (Array.getElem?_eq_some_iff.mp found).1
    rw [if_pos (by omega), stands k within]
  · rw [if_neg (by omega), List.getElem?_eq_none (by omega)]

end

namespace Raster

open Bitmap

def place (raster : Raster) (x y : Nat) : Nat := (y * raster.width + x) * raster.channels

def places (raster : Raster) (x y : Nat) : Set Nat :=
  Set.Ico (raster.place x y) (raster.place x y + raster.channels)

/-- The pixels of a raster as a function; it is only asked for those inside. -/
def pixelAt (raster : Raster) (x y : Nat) : Vector UInt8 raster.channels :=
  Vector.ofFn fun channel => raster.sample x y channel

/-- The pixels are those of `pixel`; a row is its pixels side by side and the buffer its rows end
to end; no two pixels share a place, and every place is a pixel's. -/
structure LaidOut (raster : Raster) (pixel : Nat → Nat → Array UInt8) : Prop where
  pixels : ∀ x < raster.width, ∀ y < raster.height, raster.pixel? x y = some (pixel x y)
  rows : ∀ y < raster.height,
    raster.row? y = some ((List.range raster.width).flatMap fun x => (pixel x y).toList).toArray
  whole : (List.range raster.height).flatMap (fun y => ((raster.row? y).getD #[]).toList) =
    raster.samples.toList
  placed : ∀ x < raster.width, ∀ y < raster.height, raster.pixel? x y =
    some (raster.samples.extract (raster.place x y) (raster.place x y + raster.channels))
  apart : ∀ x < raster.width, ∀ y < raster.height, ∀ x' < raster.width, ∀ y' < raster.height,
    (x, y) ≠ (x', y') → Disjoint (raster.places x y) (raster.places x' y')
  covered : ∀ i, i < raster.samples.size ↔
    ∃ x < raster.width, ∃ y < raster.height, i ∈ raster.places x y

variable {raster : Raster}

theorem mem_places {x y i : Nat} :
    i ∈ raster.places x y ↔ i / raster.channels = y * raster.width + x := by
  have some : 0 < raster.channels := raster.channels_valid.1
  rw [places, place, Set.mem_Ico, Nat.div_eq_iff some]
  omega

theorem places_apart {x y x' y' : Nat} (left : x < raster.width) (also : x' < raster.width)
    (apart : (x, y) ≠ (x', y')) : Disjoint (raster.places x y) (raster.places x' y') := by
  rw [Set.disjoint_left]
  intro i here there
  rw [mem_places] at here there
  have same := here.symm.trans there
  refine apart (Prod.ext ?_ ?_)
  · rw [← group_mod y left, same, group_mod y' also]
  · rw [← group_div y left, same, group_div y' also]

theorem lt_size_iff {i : Nat} : i < raster.samples.size ↔
    ∃ x < raster.width, ∃ y < raster.height, i ∈ raster.places x y := by
  have some : 0 < raster.channels := raster.channels_valid.1
  rw [raster.size_eq, ← Nat.div_lt_iff_lt_mul some, Nat.mul_comm raster.width]
  simp only [mem_places]
  constructor
  · intro inside
    have wide : 0 < raster.width := Nat.pos_of_mul_pos_left (Nat.zero_lt_of_lt inside)
    refine ⟨i / raster.channels % raster.width, Nat.mod_lt _ wide,
      i / raster.channels / raster.width, (Nat.div_lt_iff_lt_mul wide).mpr inside, ?_⟩
    rw [Nat.mul_comm, Nat.div_add_mod]
  · rintro ⟨x, left, y, above, same⟩
    rw [same]
    exact group_lt above left

theorem toList_pixelAt {x y channel : Nat} (within : channel < raster.channels) :
    (raster.pixelAt x y).toList[channel]? = some (raster.sample x y channel) := by
  simp [pixelAt, within]

theorem extract_pixel {x y : Nat} (left : x < raster.width) (above : y < raster.height) :
    raster.samples.extract (raster.place x y) (raster.place x y + raster.channels) =
      (raster.pixelAt x y).toArray := by
  rw [extract_eq_toArray (raster.pixelAt x y).length_toList]
  · rfl
  · intro channel within
    rw [toList_pixelAt within]
    exact sample_eq left above within

theorem rowAt_eq_pixels {y : Nat} (above : y < raster.height) :
    raster.rowAt y =
      ((List.range raster.width).flatMap fun x => (raster.pixelAt x y).toList).toArray := by
  have even (x : Nat) : (raster.pixelAt x y).toList.length = raster.channels :=
    (raster.pixelAt x y).length_toList
  refine extract_eq_toArray (length_flatMap_range fun x _ => even x) ?_
  intro k left
  have some : 0 < raster.channels := raster.channels_valid.1
  have group : k / raster.channels < raster.width := (Nat.div_lt_iff_lt_mul some).mpr left
  have rest : k % raster.channels < raster.channels := Nat.mod_lt k some
  have part := getElem?_flatMap_range (fun x _ => even x) group rest
  rw [Nat.mul_comm, Nat.div_add_mod] at part
  rw [part, toList_pixelAt rest]
  exact raster.holds.inRow above left

/-- A slice that a buffer can hold begins where it should. -/
theorem slice?_mod (fits : Fits raster.width raster.height raster.channels) {start count : Nat}
    (inside : start + count ≤ raster.samples.size) :
    raster.slice? (start % wordSize) count =
      Option.some (raster.samples.extract start (start + count)) := by
  have short : raster.samples.size < wordSize := by
    rw [raster.size_eq]
    exact Nat.lt_of_le_of_lt fits (by decide)
  rw [Nat.mod_eq_of_lt (by omega), slice?, if_pos inside]

theorem pixel?_placed (fits : Fits raster.width raster.height raster.channels) {x y : Nat}
    (left : x < raster.width) (above : y < raster.height) :
    raster.pixel? x y =
      some (raster.samples.extract (raster.place x y) (raster.place x y + raster.channels)) := by
  have some : 0 < raster.channels := raster.channels_valid.1
  have last : raster.place x y + (raster.channels - 1) < raster.samples.size :=
    lt_size_iff.mpr ⟨x, left, y, above, Nat.le_add_right _ _, by omega⟩
  rw [place] at last
  exact slice?_mod fits (by omega)

theorem row?_eq (fits : Fits raster.width raster.height raster.channels) {y : Nat}
    (above : y < raster.height) : raster.row? y = some (raster.rowAt y) :=
  slice?_mod fits (row_le above)

def filled {channels : Nat} (width height : Nat) (pixel : Nat → Nat → Vector UInt8 channels) :
    Array UInt8 :=
  ((List.range height).flatMap fun y =>
    (List.range width).flatMap fun x => (pixel x y).toList).toArray

section

variable {width height channels : Nat} {pixel : Nat → Nat → Vector UInt8 channels}

theorem length_filledRow (y : Nat) :
    ((List.range width).flatMap fun x => (pixel x y).toList).length = width * channels :=
  length_flatMap_range fun _ _ => Vector.length_toList

theorem size_filled : (filled width height pixel).size = width * height * channels := by
  rw [filled, List.size_toArray, length_flatMap_range fun y _ => length_filledRow y,
    ← Nat.mul_assoc, Nat.mul_comm height]

theorem holds_filled : Holds (filled width height pixel) width height channels fun x y channel =>
    (pixel x y).toArray.getD channel 0 := by
  intro x left y above channel within
  have place : (y * width + x) * channels + channel =
      y * (width * channels) + (x * channels + channel) := by
    rw [Nat.add_mul, Nat.mul_assoc, Nat.add_assoc]
  rw [filled, List.getElem?_toArray, place,
    getElem?_flatMap_range (fun y _ => length_filledRow y) above (group_lt left within),
    getElem?_flatMap_range (fun x _ => Vector.length_toList) left within]
  simp [within]

theorem ofPixels_eq (valid : 1 ≤ channels ∧ channels ≤ 4) :
    ofPixels width height channels pixel =
      if Fits width height channels then
        (ofSamples width height channels (filled width height pixel)).mapError .refused
      else .error (.panicked .capacity) := by
  have few : ¬ channels > 255 := by omega
  have checked : (checkChannels channels).mapError RasterFault.refused = .ok ⟨valid⟩ :=
    except_mapError_eq_ok.mpr (checkChannels_ok valid)
  simp only [ofPixels, few, if_false, checked, bind, Except.bind]
  by_cases fits : Fits width height channels
  · simp only [fits, if_true]
    rfl
  · simp only [fits, if_false]
    rfl

def ofFilled (valid : 1 ≤ channels ∧ channels ≤ 4) (width height : Nat)
    (pixel : Nat → Nat → Vector UInt8 channels) : Raster where
  width
  height
  channels
  interpretation := .gamma
  samples := filled width height pixel
  channels_valid := valid
  size_eq := size_filled

theorem ofPixels_ok (valid : 1 ≤ channels ∧ channels ≤ 4) (fits : Fits width height channels) :
    ofPixels width height channels pixel = .ok (ofFilled valid width height pixel).toBitmap := by
  have size : (filled width height pixel).size = bufferLength width height channels :=
    size_filled.trans (bufferLength_eq fits).symm
  rw [ofPixels_eq valid, if_pos fits]
  exact except_mapError_eq_ok.mpr (ofSamples_ok_iff.mpr ⟨rfl, rfl, rfl, rfl, rfl, size⟩)

theorem exists_ofPixels_iff (valid : 1 ≤ channels ∧ channels ≤ 4) :
    (∃ bitmap, ofPixels width height channels pixel = .ok bitmap) ↔ Fits width height channels := by
  constructor
  · rintro ⟨bitmap, made⟩
    by_contra long
    rw [ofPixels_eq valid, if_neg long] at made
    cases made
  · intro fits
    exact ⟨_, ofPixels_ok valid fits⟩

end

theorem holds_pixelAt (raster : Raster) :
    Holds (filled raster.width raster.height raster.pixelAt) raster.width raster.height
      raster.channels raster.sample :=
  holds_filled.congr fun x y channel within => by simp [pixelAt, within]

theorem samples_eq_filled (raster : Raster) :
    raster.samples = filled raster.width raster.height raster.pixelAt :=
  raster.holds.unique raster.size_eq size_filled raster.holds_pixelAt

theorem laidOut (fits : Fits raster.width raster.height raster.channels) :
    raster.LaidOut fun x y => (raster.pixelAt x y).toArray where
  pixels _ left _ above := by rw [pixel?_placed fits left above, extract_pixel left above]
  rows _ above := by
    rw [row?_eq fits above, rowAt_eq_pixels above]
    rfl
  whole := by
    rw [raster.samples_eq_filled, filled]
    refine List.flatMap_congr fun y above => ?_
    have inside := List.mem_range.mp above
    rw [row?_eq fits inside, rowAt_eq_pixels inside, Option.getD_some]
  placed _ left _ above := pixel?_placed fits left above
  apart _ left _ _ _ also _ _ apart := places_apart left also apart
  covered _ := lt_size_iff

theorem LaidOut.congr {pixel other : Nat → Nat → Array UInt8} (laid : raster.LaidOut pixel)
    (same : ∀ x < raster.width, ∀ y < raster.height, pixel x y = other x y) :
    raster.LaidOut other where
  pixels x left y above := same x left y above ▸ laid.pixels x left y above
  rows y above := by
    rw [laid.rows y above]
    congr 2
    refine List.flatMap_congr fun x left => ?_
    rw [same x (List.mem_range.mp left) y above]
  whole := laid.whole
  placed := laid.placed
  apart := laid.apart
  covered := laid.covered

/-- A raster that holds what `pixel` fills has its pixels. -/
theorem pixelAt_eq {pixel : Nat → Nat → Vector UInt8 raster.channels}
    (samples : raster.samples = filled raster.width raster.height pixel) {x y : Nat}
    (left : x < raster.width) (above : y < raster.height) : raster.pixelAt x y = pixel x y := by
  refine Vector.ext fun channel within => ?_
  have here := raster.holds x left y above channel within
  rw [samples, holds_filled x left y above channel within] at here
  simpa [pixelAt, within] using (Option.some.inj here).symm

theorem exists_ofSamples_iff {width height channels : Nat} {samples : Array UInt8} :
    (∃ bitmap, ofSamples width height channels samples = .ok bitmap) ↔
      samples.size = bufferLength width height channels ∧ 1 ≤ channels ∧ channels ≤ 4 := by
  constructor
  · rintro ⟨bitmap, made⟩
    obtain ⟨-, -, rfl, -, -, size⟩ := ofSamples_ok_iff.mp made
    exact ⟨size, bitmap.channels_valid⟩
  · rintro ⟨size, valid⟩
    exact ⟨⟨width, height, channels, .gamma, samples, valid⟩,
      ofSamples_ok_iff.mpr ⟨rfl, rfl, rfl, rfl, rfl, size⟩⟩

/-- What is accepted for a size that fits is a raster, made of its own pixels. -/
theorem exists_raster {width height channels : Nat} {samples : Array UInt8} {bitmap : Bitmap}
    (fits : Fits width height channels)
    (made : ofSamples width height channels samples = .ok bitmap) :
    ∃ raster : Raster, raster.toBitmap = bitmap ∧ raster.dimensions = (width, height) ∧
      raster.channels = channels ∧ raster.samples = samples ∧
      raster.LaidOut (fun x y => (raster.pixelAt x y).toArray) ∧
      ofPixels raster.width raster.height raster.channels raster.pixelAt = .ok bitmap := by
  obtain ⟨rfl, rfl, rfl, tag, rfl, size⟩ := ofSamples_ok_iff.mp made
  let raster : Raster := { bitmap with size_eq := size.trans (bufferLength_eq fits) }
  refine ⟨raster, rfl, rfl, rfl, rfl, laidOut fits, ?_⟩
  rw [ofPixels_eq raster.channels_valid, if_pos fits, ← raster.samples_eq_filled]
  exact except_mapError_eq_ok.mpr made

/-- Pixels make a raster exactly if a buffer can hold them, and then the raster has them, row by
row. Samples are accepted if their number is that of a grid with one to four channels, cut to
a word; if a buffer can hold the grid, that is their number itself, and what is accepted is
the raster that its own pixels make. -/
theorem layout_consistent (width height channels : Nat) :
    (1 ≤ channels ∧ channels ≤ 4 → ∀ pixel : Nat → Nat → Vector UInt8 channels,
      ((∃ bitmap, ofPixels width height channels pixel = .ok bitmap) ↔
        Fits width height channels) ∧
      (Fits width height channels →
        ∃ raster : Raster, ofPixels width height channels pixel = .ok raster.toBitmap ∧
          raster.dimensions = (width, height) ∧ raster.channels = channels ∧
          raster.LaidOut fun x y => (pixel x y).toArray)) ∧
    ∀ samples : Array UInt8,
      ((∃ bitmap, ofSamples width height channels samples = .ok bitmap) ↔
        samples.size = width * height * channels % wordSize ∧ 1 ≤ channels ∧ channels ≤ 4) ∧
      (Fits width height channels →
        ((∃ bitmap, ofSamples width height channels samples = .ok bitmap) ↔
          samples.size = width * height * channels ∧ 1 ≤ channels ∧ channels ≤ 4) ∧
        ∀ bitmap, ofSamples width height channels samples = .ok bitmap →
          ∃ raster : Raster, raster.toBitmap = bitmap ∧ raster.dimensions = (width, height) ∧
            raster.channels = channels ∧ raster.samples = samples ∧
            raster.LaidOut (fun x y => (raster.pixelAt x y).toArray) ∧
            ofPixels raster.width raster.height raster.channels raster.pixelAt = .ok bitmap) := by
  refine ⟨fun valid pixel => ⟨exists_ofPixels_iff valid, fun fits => ?_⟩, fun samples =>
    ⟨exists_ofSamples_iff, fun fits => ⟨?_, fun bitmap made => exists_raster fits made⟩⟩⟩
  · refine ⟨_, ofPixels_ok valid fits, rfl, rfl, (laidOut fits).congr fun x left y above => ?_⟩
    exact congrArg Vector.toArray (pixelAt_eq rfl left above)
  · rw [← bufferLength_eq fits]
    exact exists_ofSamples_iff

/-- Three pixels in each of two rows, each with its own place for channels, and three samples
that are one pixel. -/
theorem layout_consistent_small : Fits 3 2 2 ∧ Fits 1 1 3 ∧
    (∃ raster : Raster,
      ofPixels 3 2 2 (fun x y => #v[x.toUInt8, y.toUInt8]) = .ok raster.toBitmap ∧
      raster.dimensions = (3, 2) ∧ raster.channels = 2 ∧
      raster.LaidOut (fun x y => #[x.toUInt8, y.toUInt8]) ∧
      raster.row? 1 = some #[0, 1, 1, 1, 2, 1]) ∧
    ∃ raster : Raster, ofSamples 1 1 3 #[7, 8, 9] = .ok raster.toBitmap ∧
      raster.pixel? 0 0 = some #[7, 8, 9] ∧
      ofPixels raster.width raster.height raster.channels raster.pixelAt = .ok raster.toBitmap := by
  have grid : Fits 3 2 2 := by decide
  have single : Fits 1 1 3 := by decide
  refine ⟨grid, single, ?_, ?_⟩
  · obtain ⟨raster, made, size, channels, laid⟩ :=
      ((layout_consistent 3 2 2).1 (by decide) fun x y => #v[x.toUInt8, y.toUInt8]).2 grid
    refine ⟨raster, made, size, channels, laid, ?_⟩
    have width : raster.width = 3 := congrArg Prod.fst size
    have height : raster.height = 2 := congrArg Prod.snd size
    rw [laid.rows 1 (by omega), width]
    rfl
  · obtain ⟨accepted, kept⟩ := ((layout_consistent 1 1 3).2 #[7, 8, 9]).2 single
    obtain ⟨bitmap, made⟩ := accepted.mpr (by decide)
    obtain ⟨raster, rfl, size, channels, samples, laid, again⟩ := kept bitmap made
    have width : raster.width = 1 := congrArg Prod.fst size
    have height : raster.height = 1 := congrArg Prod.snd size
    refine ⟨raster, made, ?_, again⟩
    rw [laid.placed 0 (by omega) 0 (by omega), samples, place, width, channels]
    rfl

/-- A square of two to the power of 31 pixels a side is accepted without a sample, and has no
row then. -/
theorem ofSamples_empty_square :
    ∃ bitmap, ofSamples 0x80000000 0x80000000 4 #[] = .ok bitmap ∧
      (#[] : Array UInt8).size ≠ 0x80000000 * 0x80000000 * 4 ∧ bitmap.row? 0 = none := by
  refine ⟨⟨0x80000000, 0x80000000, 4, .gamma, #[], by decide⟩, ?_, by decide, rfl⟩
  exact ofSamples_ok_iff.mpr ⟨rfl, rfl, rfl, rfl, rfl, rfl⟩

end Raster

end ImageDerivative
