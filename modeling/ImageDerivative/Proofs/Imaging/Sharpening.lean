import ImageDerivative.Proofs.Chains
import ImageDerivative.Proofs.Imaging.SampleGrids

/-! Sharpening against a reference on the image as it was. Both blurs and the comparison read
the samples before any of them is changed, so that no sample sees a sharpened neighbour. -/
namespace ImageDerivative

variable {F : Type} [Single F]

open Single

/-- The index from 0 to `last` that is nearest to a position. -/
def nearest (last : Nat) (position : Int) : Nat := (max 0 (min position last)).toNat

def clampByte (i : Int) : UInt8 := UInt8.ofNat (min (max i 0) 255).toNat

/-- The byte nearest to a number: a half is added before it is cut to an integer. Numbers below
zero and above 255 are brought into the range of a byte. -/
def nearestByte (v : F) : UInt8 :=
  clampByte (if lt v 0.0 then 0 else if lt 255.0 v then 255 else toInt (v + 0.5))

theorem toByte_eq (v : F) : toByte v = nearestByte v := by
  unfold toByte nearestByte
  split
  · rfl
  · split
    · rfl
    · rfl

/-- A line of samples blurred at a position. The middle tap stands on the position; taps
beyond an end of the line stand on its end. -/
def blurAlong (taps : List F) (last position : Nat) (line : Nat → UInt8) : UInt8 :=
  let reach := taps.length / 2
  nearestByte (weighed (taps.zipIdx.map fun (tap, k) =>
    (nearest last ((position : Int) + k - (reach : Int)), tap)) line)

/-- An image blurred along its rows and rounded to bytes, and then along its columns. -/
def blurred (taps : List F) (width height : Nat) (image : SampleGrid) : SampleGrid :=
  let rows : SampleGrid := fun x y channel =>
    blurAlong taps (width - 1) x fun p => image p y channel
  fun x y channel => blurAlong taps (height - 1) y fun r => rows x r channel

/-- The last of two or four channels. -/
def IsAlpha (channels channel : Nat) : Prop :=
  (channels = 2 ∨ channels = 4) ∧ channel + 1 = channels

instance (channels channel : Nat) : Decidable (IsAlpha channels channel) :=
  inferInstanceAs (Decidable (_ ∧ _))

namespace UnsharpMask

/-- The sharpened image. Alpha, and color that is less than the threshold away from its blurred
counterpart, is kept; other color is pushed away from it, cut to an integer and brought into
the range of a byte. -/
def reference (mask : UnsharpMask F) (width height channels : Nat) (image : SampleGrid) :
    SampleGrid := fun x y channel =>
  let value := (image x y channel).toNat
  let blur := (blurred (gaussian mask.radius) width height image x y channel).toNat
  let difference : Int := value - blur
  if IsAlpha channels channel ∨ difference.natAbs < mask.threshold then image x y channel
  else
    clampByte (toInt ((mask.amount + 1.0) * ofInt difference + ofNat blur))

omit [Single F] in
/-- A blur stays inside the edges. -/
theorem le_of_mem_blurTerms {taps : List F} {last position : Nat} {term : Nat × F}
    (member : term ∈ blurTerms taps last position) : term.1 ≤ last := by
  obtain ⟨⟨tap, k⟩, -, rfl⟩ := List.mem_map.mp member
  exact Nat.min_le_right _ _

omit [Single F] in
theorem blurTerms_eq (taps : List F) (last position : Nat) :
    blurTerms taps last position = taps.zipIdx.map fun (tap, k) =>
      (nearest last ((position : Int) + k - ((taps.length / 2 : Nat) : Int)), tap) := by
  apply List.map_congr_left
  rintro ⟨tap, k⟩ -
  have same : min (position + k - taps.length / 2) last =
      nearest last ((position : Int) + k - ((taps.length / 2 : Nat) : Int)) := by
    unfold nearest
    omega
  simp only [same]

theorem blurAlong_eq (taps : List F) (last position : Nat) (line : Nat → UInt8) :
    blurAlong taps last position line = toByte (weighed (blurTerms taps last position) line) := by
  rw [blurTerms_eq, toByte_eq]
  rfl

theorem blurRow_ok {raster : Raster} (taps : List F) (wide : 0 < raster.width) {y : Nat}
    (above : y < raster.height) (old : Vector UInt8 raster.stride) :
    blurRow raster.toBitmap taps y old = .ok (Vector.ofFn fun s =>
      blurAlong taps (raster.width - 1) (s.val / raster.channels) fun p =>
        raster.sample p y (s.val % raster.channels)) := by
  refine ofFnM_ok _ fun s => ?_
  have some : 0 < raster.channels := raster.channels_valid.1
  have channel : s.val % raster.channels < raster.channels := Nat.mod_lt _ some
  have last : (raster.rowAt y).size / raster.channels - 1 = raster.width - 1 := by
    rw [Raster.size_rowAt above, Bitmap.stride, Nat.mul_div_cancel _ some]
  have total := weightedSum_ok (raster.rowAt y)
    (fun p => raster.sample p y (s.val % raster.channels))
    (fun p => p * raster.channels + s.val % raster.channels)
    (blurTerms taps (raster.width - 1) (s.val / raster.channels))
    (fun term member => by
      have near := le_of_mem_blurTerms member
      exact Raster.rowAt_sample (by omega) above channel)
  simp only [last, bind, Except.bind, total, pure, Except.pure, blurAlong_eq]

theorem blurColumns_ok {samples : Array UInt8} {width height channels : Nat} {image : SampleGrid}
    (taps : List F) (holds : Holds samples width height channels image) {y : Nat}
    (above : y < height) (old : Vector UInt8 (width * channels)) :
    blurColumns samples height (width * channels) taps y old = .ok (Vector.ofFn fun s =>
      blurAlong taps (height - 1) y fun r => image (s.val / channels) r (s.val % channels)) := by
  refine ofFnM_ok _ fun s => ?_
  have total := weightedSum_ok samples (fun r => image (s.val / channels) r (s.val % channels))
    (fun r => r * (width * channels) + s.val) (blurTerms taps (height - 1) y)
    (fun term member => by
      have near := le_of_mem_blurTerms member
      exact holds.inRow (by omega) s.isLt)
  simp only [bind, Except.bind, total, pure, Except.pure, blurAlong_eq]

theorem lt_colorChannels_iff {bitmap : Bitmap} {channel : Nat}
    (within : channel < bitmap.channels) :
    channel < bitmap.colorChannels ↔ ¬ IsAlpha bitmap.channels channel := by
  simp only [Bitmap.colorChannels, Bitmap.hasAlpha, Bool.or_eq_true, decide_eq_true_eq, IsAlpha]
  split
  · omega
  · omega

theorem reference_eq (mask : UnsharpMask F) (width height channels : Nat) (image : SampleGrid)
    (x y channel : Nat) :
    mask.reference width height channels image x y channel =
      if ¬ IsAlpha channels channel then
        mask.sharpenSample (image x y channel)
          (blurred (gaussian mask.radius) width height image x y channel)
      else image x y channel := by
  by_cases alpha : IsAlpha channels channel
  · simp only [reference, alpha, true_or, if_true, not_true_eq_false, if_false]
  · simp only [reference, alpha, false_or, not_false_eq_true, if_true, sharpenSample, clampByte]

theorem sharpenRow_ok (mask : UnsharpMask F) {raster : Raster} {blur : Array UInt8}
    (holds : Holds blur raster.width raster.height raster.channels
      (blurred (gaussian mask.radius) raster.width raster.height raster.sample)) {y : Nat}
    (above : y < raster.height) {old : Vector UInt8 raster.stride}
    (held : ∀ s : Fin raster.stride,
      old[s] = raster.sample (s.val / raster.channels) y (s.val % raster.channels)) :
    mask.sharpenRow raster.toBitmap blur y old =
      .ok (Vector.ofFn fun s => mask.reference raster.width raster.height raster.channels
        raster.sample (s.val / raster.channels) y (s.val % raster.channels)) := by
  refine ofFnM_ok _ fun s => ?_
  have channel : s.val % raster.channels < raster.channels :=
    Nat.mod_lt _ raster.channels_valid.1
  have blurs : blur[y * raster.stride + s.val]? = _ := holds.inRow above s.isLt
  simp only [sampleAt, blurs, held, reference_eq, ← lt_colorChannels_iff channel]
  rfl

/-- There is nothing that the mask could change. -/
def Idle (mask : UnsharpMask F) (raster : Raster) : Prop :=
  mask.hasEffect = false ∨ raster.samples.isEmpty = true

theorem samplesOf_idle {mask : UnsharpMask F} {raster : Raster} (idle : mask.Idle raster)
    (pool : WorkerPool) (pass : Nat) :
    mask.samplesOf raster.toBitmap pool pass = .ok raster.toVector := by
  have still : (!mask.hasEffect || raster.samples.isEmpty) = true := by
    rcases idle with weak | empty
    · rw [weak, Bool.not_false, Bool.true_or]
    · rw [empty, Bool.or_true]
  simp only [samplesOf, still, if_true]
  rfl

theorem apply_of_samplesOf {mask : UnsharpMask F} {raster : Raster} {pool : WorkerPool} {pass : Nat}
    {samples : Vector UInt8 raster.samples.size}
    (made : mask.samplesOf raster.toBitmap pool pass = .ok samples) :
    mask.apply raster pool pass = .ok (raster.withSamples samples) :=
  except_bind_eq_ok.mpr ⟨samples, made, rfl⟩

/-- A mask that has nothing to change leaves all as it is. -/
theorem apply_idle {mask : UnsharpMask F} {raster : Raster} (idle : mask.Idle raster)
    (pool : WorkerPool) (pass : Nat) : mask.apply raster pool pass = .ok raster :=
  apply_of_samplesOf (samplesOf_idle idle pool pass)

/-- The three passes of a mask, one after the other. -/
theorem samplesOf_holds {mask : UnsharpMask F} {raster : Raster} (busy : ¬ mask.Idle raster) :
    ∃ samples : Vector UInt8 raster.samples.size,
      Holds samples.toArray raster.width raster.height raster.channels
        (mask.reference raster.width raster.height raster.channels raster.sample) ∧
      ∀ (pool : WorkerPool) pass,
        mask.samplesOf raster.toBitmap pool pass = .ok samples := by
  have some : 0 < raster.width * raster.height * raster.channels := by
    rw [← raster.size_eq, Array.size_pos_iff]
    intro empty
    exact busy (.inr (by rw [empty]; rfl))
  have wide : 0 < raster.width := Nat.pos_of_mul_pos_right (Nat.pos_of_mul_pos_right some)
  have stride : 0 < raster.width * raster.channels := Nat.mul_pos wide raster.channels_valid.1
  have whole := raster.stride_whole
  let taps := gaussian mask.radius
  let clear := Vector.replicate raster.samples.size (0 : UInt8)
  obtain ⟨horizontal, along, first⟩ := WorkerPool.forEachRow_holds clear (blurRow raster.toBitmap taps)
    (fun x y channel => blurAlong taps (raster.width - 1) x fun p => raster.sample p y channel)
    stride whole fun y above => blurRow_ok taps wide above _
  obtain ⟨blur, across, second⟩ := WorkerPool.forEachRow_holds clear
    (blurColumns horizontal.toArray raster.height (raster.width * raster.channels) taps)
    (blurred taps raster.width raster.height raster.sample) stride whole
    fun y above => blurColumns_ok taps along above _
  obtain ⟨samples, holds, third⟩ := WorkerPool.forEachRow_holds raster.toVector
    (mask.sharpenRow raster.toBitmap blur.toArray)
    (mask.reference raster.width raster.height raster.channels raster.sample) stride whole
    fun y above => mask.sharpenRow_ok across above (raster.holds.rowsOf whole above)
  refine ⟨samples, holds, fun pool pass => ?_⟩
  have runs : ¬ (!mask.hasEffect || raster.samples.isEmpty) = true := by
    simpa only [Idle, Bool.or_eq_true, Bool.not_eq_true'] using busy
  simp only [samplesOf, runs]
  exact except_bind_eq_ok.mpr ⟨horizontal, first pool pass, except_bind_eq_ok.mpr
    ⟨blur, second pool (pass + 1), third pool (pass + 2)⟩⟩

theorem apply_holds {mask : UnsharpMask F} {raster : Raster} (busy : ¬ mask.Idle raster) :
    ∃ samples : Vector UInt8 raster.samples.size,
      Holds samples.toArray raster.width raster.height raster.channels
        (mask.reference raster.width raster.height raster.channels raster.sample) ∧
      ∀ (pool : WorkerPool) pass,
        mask.apply raster pool pass = .ok (raster.withSamples samples) := by
  obtain ⟨samples, holds, made⟩ := samplesOf_holds busy
  exact ⟨samples, holds, fun pool pass => apply_of_samplesOf (made pool pass)⟩

/-- Sharpening a raster never fails. -/
theorem exists_samplesOf (mask : UnsharpMask F) (raster : Raster) (pool : WorkerPool) (pass : Nat) :
    ∃ samples, mask.samplesOf raster.toBitmap pool pass = .ok samples := by
  by_cases idle : mask.Idle raster
  · exact ⟨raster.toVector, samplesOf_idle idle pool pass⟩
  · obtain ⟨samples, -, made⟩ := samplesOf_holds idle
    exact ⟨samples, made pool pass⟩

/-- Sharpening answers with the reference. It keeps the size, the channels and the tag, and
where the amount has no effect or there is nothing to sharpen, every sample. -/
theorem apply_eq_reference (mask : UnsharpMask F) (raster : Raster) (pool : WorkerPool) (pass : Nat) :
    ∃ out, mask.apply raster pool pass = .ok out ∧ out.dimensions = raster.dimensions ∧
      out.channels = raster.channels ∧ out.interpretation = raster.interpretation ∧
      (mask.Idle raster → out.samples = raster.samples) ∧
      (mask.hasEffect = true → Holds out.samples raster.width raster.height raster.channels
        (mask.reference raster.width raster.height raster.channels raster.sample)) := by
  by_cases idle : mask.Idle raster
  · refine ⟨raster, apply_idle idle pool pass, rfl, rfl, rfl, fun _ => rfl, ?_⟩
    intro strong x left y above channel within
    have empty : raster.samples.isEmpty = true := idle.resolve_left (by rw [strong]; decide)
    have there := raster.holds x left y above channel within
    rw [Array.isEmpty_iff.mp empty] at there
    cases there
  · obtain ⟨samples, holds, made⟩ := apply_holds idle
    exact ⟨raster.withSamples samples, made pool pass, rfl, rfl, rfl, fun still => absurd still idle,
      fun _ => holds⟩

end UnsharpMask

end ImageDerivative
