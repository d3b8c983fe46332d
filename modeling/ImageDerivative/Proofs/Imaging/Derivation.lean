import ImageDerivative.Proofs.Imaging.Rendering
import ImageDerivative.Proofs.Imaging.Requests

/-! A derivation is all or nothing around its backend, as long as buffers can hold what it
makes. Scaling and sharpening then fail for no raster and no target, since whatever is too
small for the kernels becomes a blank; so a source that can be decoded is encoded, once, and
a failure is always one of the backend. -/
namespace ImageDerivative

theorem Sizing.one_le_toPixels (v : Float) : 1 ≤ toPixels v := by
  unfold toPixels
  split
  · exact Nat.le_max_right _ _
  · exact Nat.le_refl _

/-- Neither axis of a derivative is empty. -/
theorem one_le_resultingSize (source : Size) (mode : ScaleMode) :
    1 ≤ (resultingSize source mode).1 ∧ 1 ≤ (resultingSize source mode).2 :=
  ⟨Sizing.one_le_toPixels _, Sizing.one_le_toPixels _⟩

/-- The kernels need three pixels on each axis. -/
def Size.Large (size : Size) : Prop := 3 ≤ size.1 ∧ 3 ≤ size.2

instance (size : Size) : Decidable size.Large := inferInstanceAs (Decidable (_ ∧ _))

theorem tooSmall_eq_false_iff {size : Size} : tooSmall size = false ↔ size.Large := by
  simp only [tooSmall, Bool.or_eq_false_iff, decide_eq_false_iff_not, Nat.not_lt]
  rfl

/-- `out` has the target's size and the source's channels. It is blank where source or
target is too small, the source itself where that has the size, and else the resampled
source. -/
structure Scales (source : Raster) (target : Size) (kernel : Kernel) (linear : Bool)
    (pool : WorkerPool) (out : Raster) : Prop where
  dimensions : out.dimensions = target
  channels : out.channels = source.channels
  blank : ¬ Size.Large source.dimensions ∨ ¬ target.Large → ∀ sample ∈ out.samples, sample = 0
  same : Size.Large source.dimensions → source.dimensions = target → out = source
  resampled : Size.Large source.dimensions → target.Large → source.dimensions ≠ target →
    Resampling.run (F := Float32)
      { width := target.1, height := target.2, kernel, linear, unsharp := 0.0 }
      source none pool = .ok out

section

variable (source : Raster) {target : Size} (kernel : Kernel) (linear : Bool) (pool : WorkerPool)

/-- What is too small is made a blank, or nothing if there is no such blank. -/
theorem scale_small (small : ¬ Size.Large source.dimensions ∨ ¬ target.Large) :
    scale source target kernel linear pool = do
      let blank ← Bitmap.blank target.1 target.2 source.channels
      return blank.withInterpretation (.ofLinear linear) := by
  have idle : (tooSmall source.dimensions || tooSmall target) = true := by
    simpa only [← tooSmall_eq_false_iff, Bool.not_eq_false, Bool.or_eq_true] using small
  simp only [scale, idle, if_true]

theorem exists_scale_small (small : ¬ Size.Large source.dimensions ∨ ¬ target.Large)
    (fits : Bitmap.Fits target.1 target.2 source.channels) :
    ∃ out : Raster, scale source target kernel linear pool = .ok out.toBitmap ∧
      Scales source target kernel linear pool out := by
  have made := Bitmap.blank_eq fits source.channels_valid
  refine ⟨.zeros target.1 target.2 source.channels_valid (.ofLinear linear), ?_, rfl, rfl, ?_, ?_, ?_⟩
  · rw [scale_small source kernel linear pool small, made]
    rfl
  · intro _ sample member
    exact (Array.mem_replicate.mp member).2
  · intro large same
    exact absurd (same ▸ large) (small.resolve_left (not_not_intro large))
  · intro large largeTarget
    exact absurd largeTarget (small.resolve_left (not_not_intro large))

theorem exists_scale_same (large : Size.Large source.dimensions) :
    ∃ out : Raster, scale source source.dimensions kernel linear pool = .ok out.toBitmap ∧
      Scales source source.dimensions kernel linear pool out := by
  have busy : (tooSmall source.dimensions || tooSmall source.dimensions) = false := by
    rw [tooSmall_eq_false_iff.mpr large, Bool.or_false]
  refine ⟨source, ?_, rfl, rfl, ?_, fun _ _ => rfl, fun _ _ other => absurd rfl other⟩
  · simp only [scale, busy, Bool.false_eq_true, if_false, if_true]
    rfl
  · rintro (small | small)
    · exact absurd large small
    · exact absurd large small

theorem exists_scale_resampled (large : Size.Large source.dimensions) (largeTarget : target.Large)
    (other : source.dimensions ≠ target) :
    ∃ out : Raster, scale source target kernel linear pool = .ok out.toBitmap ∧
      Scales source target kernel linear pool out := by
  let op : Resampling Float32 :=
    { width := target.1, height := target.2, kernel, linear, unsharp := 0.0 }
  have accepted : ¬ op.Refuses source none := by
    obtain ⟨wide, high⟩ := largeTarget
    obtain ⟨thick, tall⟩ : 3 ≤ source.width ∧ 3 ≤ source.height := large
    rintro (narrow | low | thin | flat | ⟨_, reused, _⟩)
    · exact absurd wide (Nat.not_le.mpr narrow)
    · exact absurd high (Nat.not_le.mpr low)
    · omega
    · omega
    · cases reused
  obtain ⟨out, ran, dimensions, channels, -⟩ := Resampling.run_done accepted pool
  have busy : (tooSmall source.dimensions || tooSmall target) = false := by
    rw [tooSmall_eq_false_iff.mpr large, tooSmall_eq_false_iff.mpr largeTarget, Bool.or_false]
  refine ⟨out, ?_, dimensions, channels, ?_, fun _ same => absurd same other, fun _ _ _ => ran⟩
  · simp only [scale, busy, Bool.false_eq_true, if_false, other]
    exact except_bind_eq_ok.mpr ⟨out, except_mapError_eq_ok.mpr ran, rfl⟩
  · rintro (small | small)
    · exact absurd large small
    · exact absurd largeTarget small

/-- Scaling never fails where a buffer can hold the target. -/
theorem exists_scale (fits : Bitmap.Fits target.1 target.2 source.channels) :
    ∃ out : Raster, scale source target kernel linear pool = .ok out.toBitmap ∧
      Scales source target kernel linear pool out := by
  by_cases small : ¬ Size.Large source.dimensions ∨ ¬ target.Large
  · exact exists_scale_small source kernel linear pool small fits
  · obtain ⟨large, largeTarget⟩ := not_or.mp small
    by_cases same : source.dimensions = target
    · subst same
      exact exists_scale_same source kernel linear pool (not_not.mp large)
    · exact exists_scale_resampled source kernel linear pool (not_not.mp large)
        (not_not.mp largeTarget) same

end

/-- Sharpening a raster never fails, keeps size and channels, and without an effect everything. -/
theorem exists_sharpen (raster : Raster) (amount : Float32) (pool : WorkerPool) :
    ∃ out : Raster, sharpen raster.toBitmap amount pool = .ok out.toBitmap ∧
      out.dimensions = raster.dimensions ∧ out.channels = raster.channels ∧
      ((UnsharpMask.ofAmount amount).hasEffect = false → out = raster) := by
  by_cases idle : (!(UnsharpMask.ofAmount amount).hasEffect || decide (raster.width ≤ 2) ||
      decide (raster.height ≤ 2)) = true
  · refine ⟨raster, ?_, rfl, rfl, fun _ => rfl⟩
    simp only [sharpen, idle, if_true]
    rfl
  · obtain ⟨samples, made⟩ := (UnsharpMask.ofAmount amount).exists_samplesOf raster pool 2
    refine ⟨raster.withSamples samples, ?_, rfl, rfl, fun blunt => ?_⟩
    · simp only [sharpen, idle, Bool.false_eq_true, if_false, made]
      rfl
    · rw [blunt] at idle
      exact absurd rfl idle

/-- What is no whole number of rows cannot be sharpened. -/
theorem sharpen_ragged {bitmap : Bitmap} {amount : Float32} (pool : WorkerPool)
    (strong : (UnsharpMask.ofAmount amount).hasEffect = true)
    (large : 3 ≤ bitmap.width ∧ 3 ≤ bitmap.height)
    (ragged : bitmap.samples.size % bitmap.stride ≠ 0) :
    sharpen bitmap amount pool =
      .error (.refused (.partialRow bitmap.samples.size bitmap.stride)) := by
  have size : bitmap.samples.size ≠ 0 := by
    intro empty
    rw [empty, Nat.zero_mod] at ragged
    exact ragged rfl
  have stride : bitmap.stride ≠ 0 :=
    Nat.ne_of_gt (Nat.mul_pos (by omega) bitmap.channels_valid.1)
  have busy : (!(UnsharpMask.ofAmount amount).hasEffect || decide (bitmap.width ≤ 2) ||
      decide (bitmap.height ≤ 2)) = false := by
    simp only [strong, Bool.not_true, Bool.false_or, Bool.or_eq_false_iff, decide_eq_false_iff_not]
    omega
  have some : (!(UnsharpMask.ofAmount amount).hasEffect || bitmap.samples.isEmpty) = false := by
    rw [strong, Bool.not_true, Bool.false_or, Bool.eq_false_iff, ne_eq,
      Array.isEmpty_iff_size_eq_zero]
    exact size
  have refused : (UnsharpMask.ofAmount amount).samplesOf bitmap pool 2 =
      .error (.partialRow bitmap.samples.size bitmap.stride) := by
    have empty : ¬ (bitmap.stride = 0 ∨ bitmap.samples.size = 0) := not_or.mpr ⟨stride, size⟩
    simp only [UnsharpMask.samplesOf, some, Bool.false_eq_true, if_false, WorkerPool.forEachRow,
      if_neg empty, dif_neg ragged, bind, Except.bind]
  simp only [sharpen, busy, Bool.false_eq_true, if_false, refused, Except.mapError, bind,
    Except.bind]

namespace Recipe

variable (recipe : Recipe)

def target (source : Raster) : Size := resultingSize source.dimensions recipe.mode

def chosenKernel (source : Raster) : Kernel :=
  chooseKernel recipe.kernel source.dimensions (recipe.target source) recipe.policy

/-- `out` is what may be handed to the encoder for `source`. -/
structure HandsOver (source : Raster) (pool : WorkerPool) (out : Raster) : Prop where
  dimensions : out.dimensions = recipe.target source
  wide : 1 ≤ out.width
  high : 1 ≤ out.height
  channels : out.channels = source.channels
  /-- Without sharpening it is what scaling makes. -/
  scales : (UnsharpMask.ofAmount recipe.sharpen.toFloat).hasEffect = false →
    Scales source (recipe.target source) (recipe.chosenKernel source) recipe.linear pool out

def derivative (source : Raster) (out : Bitmap) : Derivative where
  sourceSize := source.dimensions
  size := out.dimensions
  channels := out.channels
  kernel := recipe.chosenKernel source

/-- Buffers can hold the derivative of a source, and what is between the two passes if the
source is resampled. -/
def Fits (source : Raster) : Prop :=
  let target := recipe.target source
  Bitmap.Fits target.1 target.2 source.channels ∧
    (Size.Large source.dimensions → target.Large → source.dimensions ≠ target →
      Bitmap.Fits target.1 source.height source.channels)

instance (source : Raster) : Decidable (recipe.Fits source) :=
  inferInstanceAs (Decidable (_ ∧ (_ → _)))

theorem render_of_scale {recipe : Recipe} {pool : WorkerPool} {source : Raster} {fault : RasterFault}
    (failed : scale source (recipe.target source) (recipe.chosenKernel source) recipe.linear pool =
      .error fault) : recipe.render pool source = .error fault := by
  unfold target chosenKernel target at failed
  simp only [render, failed, bind, Except.bind]

theorem render_of_sharpen {recipe : Recipe} {pool : WorkerPool} {source : Raster} {scaled : Bitmap}
    {fault : RasterFault}
    (made : scale source (recipe.target source) (recipe.chosenKernel source) recipe.linear pool =
      .ok scaled)
    (failed : ImageDerivative.sharpen scaled recipe.sharpen.toFloat pool = .error fault) :
    recipe.render pool source = .error fault := by
  unfold target chosenKernel target at made
  simp only [render, made, failed, bind, Except.bind]

/-- The pixel work of a derivation that buffers can hold never fails. -/
theorem exists_render (pool : WorkerPool) {source : Raster} (fits : recipe.Fits source) :
    ∃ out : Raster,
      recipe.render pool source = .ok (recipe.derivative source out.toBitmap, out.toBitmap) ∧
      recipe.HandsOver source pool out := by
  obtain ⟨scaled, resized, scales⟩ := exists_scale source (recipe.chosenKernel source)
    recipe.linear pool fits.1
  obtain ⟨out, sharpened, dimensions, channels, blunt⟩ :=
    exists_sharpen scaled recipe.sharpen.toFloat pool
  have rendered : recipe.render pool source =
      .ok (recipe.derivative source out.toBitmap, out.toBitmap) := by
    refine except_bind_eq_ok.mpr ⟨scaled.toBitmap, resized, ?_⟩
    exact except_bind_eq_ok.mpr ⟨out.toBitmap, sharpened, rfl⟩
  have size : out.dimensions = recipe.target source := dimensions.trans scales.dimensions
  obtain ⟨wide, high⟩ := one_le_resultingSize source.dimensions recipe.mode
  refine ⟨out, rendered, size, ?_, ?_, channels.trans scales.channels, fun idle => ?_⟩
  · exact wide.trans_eq (congrArg Prod.fst size).symm
  · exact high.trans_eq (congrArg Prod.snd size).symm
  · rw [blunt idle]
    exact scales

end Recipe

inductive BackendCall where
  | identify (path : Path)
  | decode (path : Path)
  | encode (bitmap : Bitmap) (path : Path) (quality : Quality)
  deriving DecidableEq

/-- The operation, which adds `call` to the calls made before. -/
def recording {σ α : Type} (call : BackendCall) (operation : EStateM BackendError σ α) :
    EStateM BackendError (σ × List BackendCall) α := fun (state, calls) =>
  match operation state with
  | .ok a left => .ok a (left, calls ++ [call])
  | .error error left => .error error (left, calls ++ [call])

/-- The backend with a list of the calls that are made to it. -/
def Backend.recorded {σ : Type} (backend : Backend σ) : Backend (σ × List BackendCall) where
  identify path := recording (.identify path) (backend.identify path)
  decode path := recording (.decode path) (backend.decode path)
  encode bitmap path quality :=
    recording (.encode bitmap path quality) (backend.encode bitmap path quality)

def withoutCalls {ε σ α : Type} :
    EStateM.Result ε (σ × List BackendCall) α → EStateM.Result ε σ α
  | .ok a (state, _) => .ok a state
  | .error error (state, _) => .error error state

section

variable {σ : Type} (backend : Backend σ) (recipe : Recipe) (pool : WorkerPool)

theorem derive_undecoded {state left : σ} {error : BackendError}
    (refused : backend.decode recipe.source state = .error error left) :
    derive backend recipe pool state = .error error left := by
  simp only [derive, bind, EStateM.bind, refused]

theorem derive_recorded_undecoded {state left : σ} {error : BackendError}
    (calls : List BackendCall) (refused : backend.decode recipe.source state = .error error left) :
    derive backend.recorded recipe pool (state, calls) =
      .error error (left, calls ++ [.decode recipe.source]) := by
  apply derive_undecoded
  simp only [Backend.recorded, recording, refused]

theorem decode_recorded {state left : σ} {source : Raster} (calls : List BackendCall)
    (decoded : backend.decode recipe.source state = .ok source left) :
    backend.recorded.decode recipe.source (state, calls) =
      .ok source (left, calls ++ [.decode recipe.source]) := by
  simp only [Backend.recorded, recording, decoded]

/-- A derivation after its first call. -/
theorem derive_decoded {state left : σ} {source : Raster}
    (decoded : backend.decode recipe.source state = .ok source left) :
    derive backend recipe pool state =
      match recipe.render pool source with
      | .error fault => .error (.ofRaster fault) left
      | .ok (derivative, out) =>
        match backend.encode out recipe.output recipe.quality left with
        | .ok () last => .ok derivative last
        | .error error last => .error error last := by
  rw [Recipe.derive_eq_render]
  simp only [bind, EStateM.bind, decoded]
  cases recipe.render pool source with
  | error fault => rfl
  | ok made =>
    obtain ⟨derivative, out⟩ := made
    simp only [liftRaster, pure, EStateM.pure]
    cases backend.encode out recipe.output recipe.quality left with
    | ok _ _ => rfl
    | error _ _ => rfl

/-- The list of calls has no part in a derivation. -/
theorem withoutCalls_derive (state : σ) (calls : List BackendCall) :
    withoutCalls (derive backend.recorded recipe pool (state, calls)) =
      derive backend recipe pool state := by
  cases decoded : backend.decode recipe.source state with
  | error error left =>
    rw [derive_recorded_undecoded backend recipe pool calls decoded,
      derive_undecoded backend recipe pool decoded]
    rfl
  | ok source left =>
    rw [derive_decoded _ _ pool (decode_recorded backend recipe calls decoded),
      derive_decoded _ _ pool decoded]
    cases recipe.render pool source with
    | error fault => rfl
    | ok made =>
      simp only [Backend.recorded, recording]
      cases backend.encode made.2 recipe.output recipe.quality left with
      | ok _ _ => rfl
      | error _ _ => rfl

/-- A source that cannot be decoded fails the derivation as it is, and nothing is encoded. Any
other source whose derivation buffers can hold is encoded exactly once, after it has been
decoded: a raster of the size that the mode makes of the source's and with the source's
channels, at the output's path in the quality asked for. The derivation then succeeds exactly
if the encoder does. -/
theorem derive_allOrNothing (state : σ) (calls : List BackendCall) :
    withoutCalls (derive backend.recorded recipe pool (state, calls)) =
      derive backend recipe pool state ∧
    match backend.decode recipe.source state with
    | .error error left =>
      derive backend.recorded recipe pool (state, calls) =
        .error error (left, calls ++ [.decode recipe.source])
    | .ok source left => recipe.Fits source → ∃ out : Raster, recipe.HandsOver source pool out ∧
      derive backend.recorded recipe pool (state, calls) =
        let made := calls ++
          [.decode recipe.source, .encode out.toBitmap recipe.output recipe.quality]
        match backend.encode out.toBitmap recipe.output recipe.quality left with
        | .error error last => .error error (last, made)
        | .ok () last => .ok (recipe.derivative source out.toBitmap) (last, made) := by
  refine ⟨withoutCalls_derive backend recipe pool state calls, ?_⟩
  cases decoded : backend.decode recipe.source state with
  | error error left =>
    exact derive_recorded_undecoded backend recipe pool calls decoded
  | ok source left =>
    intro fits
    obtain ⟨out, rendered, handed⟩ := recipe.exists_render pool fits
    refine ⟨out, handed, ?_⟩
    rw [derive_decoded _ _ pool (decode_recorded backend recipe calls decoded), rendered]
    simp only [Backend.recorded, recording]
    cases backend.encode out.toBitmap recipe.output recipe.quality left with
    | error error last => simp
    | ok _ last => simp

end

/-- A backend whose files all hold this raster, and which encodes everything. -/
def Backend.ofRaster (source : Raster) : Backend Unit where
  identify _ := pure source.dimensions
  decode _ := pure source
  encode _ _ _ := pure ()

/-- One pixel becomes a blank of two by five. -/
theorem derive_allOrNothing_pixel :
    let source : Raster := ⟨⟨1, 1, 3, .gamma, #[7, 8, 9], by decide⟩, rfl⟩
    let recipe : Recipe :=
      { source := "in.png", output := "out.png", mode := .exact 2 5, kernel := none, policy := {}
        sharpen := .ofFloat 1.0, linear := false, quality := .standard }
    recipe.Fits source ∧ ∃ out : Raster, recipe.HandsOver source (.ofSize 2) out ∧
      derive (Backend.ofRaster source).recorded recipe (.ofSize 2) ((), []) =
        .ok (recipe.derivative source out.toBitmap) ((),
          [.decode recipe.source, .encode out.toBitmap recipe.output recipe.quality]) := by
  intro source recipe
  have fits : recipe.Fits source := by decide +kernel
  exact ⟨fits, (derive_allOrNothing (.ofRaster source) recipe (.ofSize 2) () []).2 fits⟩

namespace Enlarged

/-- A pixel is to be enlarged to another size and sharpened by this amount. -/
def recipe (width height : Nat) (amount : Float32) : Recipe where
  source := "in.png"
  output := "out.xyz"
  mode := .exact width height
  kernel := none
  policy := {}
  sharpen := .ofFloat amount
  linear := false
  quality := .standard

def pixel : Raster := ⟨⟨1, 1, 3, .gamma, #[7, 8, 9], by decide⟩, rfl⟩

def clearPixel : Raster := ⟨⟨1, 1, 4, .gamma, #[7, 8, 9, 0], by decide⟩, rfl⟩

/-- The part of a row that is left of a blank when its length is cut to a word. -/
def cutBlank : Bitmap :=
  ⟨2147529989, 2147437308, 4, .gamma, Array.replicate 166832 0, by decide⟩

theorem blank_cut : Bitmap.blank 2147529989 2147437308 4 = .ok cutBlank := by
  have length : Bitmap.bufferLength 2147529989 2147437308 4 = 166832 := by decide
  exact Bitmap.blank_ok_iff.mpr
    ⟨rfl, rfl, rfl, rfl, by rw [length]; rfl, by rw [length]; decide⟩

theorem pixel_small {raster : Raster} (thin : raster.width = 1) (target : Size) :
    ¬ Size.Large raster.dimensions ∨ ¬ target.Large :=
  .inl fun large => absurd large.1 (by simp [Bitmap.dimensions, thin])

theorem render_panics :
    (recipe 0x80000000 0x80000000 0.0).render (.ofSize 2) pixel =
      .error (.panicked .capacity) := by
  have target : (recipe 0x80000000 0x80000000 0.0).target pixel = (0x80000000, 0x80000000) := by
    decide +kernel
  apply Recipe.render_of_scale
  rw [scale_small _ _ _ _ (pixel_small rfl _), target,
    Bitmap.blank_panics pixel.channels_valid (by decide)]
  rfl

theorem render_refused :
    (recipe 2147529989 2147437308 1.0).render (.ofSize 2) clearPixel =
      .error (.refused (.partialRow 166832 8590119956)) := by
  have target : (recipe 2147529989 2147437308 1.0).target clearPixel =
      (2147529989, 2147437308) := by decide +kernel
  have strong : (UnsharpMask.ofAmount (Binary32.ofFloat 1.0).toFloat).hasEffect = true := by decide
  refine Recipe.render_of_sharpen (?_ : scale _ _ _ _ _ = .ok cutBlank) ?_
  · rw [scale_small _ _ _ _ (pixel_small rfl _), target]
    exact except_bind_eq_ok.mpr ⟨cutBlank, blank_cut, rfl⟩
  · have large : 3 ≤ cutBlank.width ∧ 3 ≤ cutBlank.height := ⟨by decide, by decide⟩
    have size : cutBlank.samples.size = 166832 := Array.size_replicate
    have stride : cutBlank.stride = 8590119956 := rfl
    have refused := sharpen_ragged (.ofSize 2) strong large (by rw [size, stride]; decide)
    rw [size, stride] at refused
    exact refused

end Enlarged

/-- A pixel that is to become two to the power of 31 pixels a side makes the work panic, for no
buffer holds the blank. Another size leaves a blank that is no whole number of rows, which
cannot be sharpened. Nothing is encoded in either case. -/
theorem derive_unencoded :
    derive (Backend.ofRaster Enlarged.pixel).recorded (Enlarged.recipe 0x80000000 0x80000000 0.0)
        (.ofSize 2) ((), []) = .error (.panicked .capacity) ((), [.decode "in.png"]) ∧
      derive (Backend.ofRaster Enlarged.clearPixel).recorded
        (Enlarged.recipe 2147529989 2147437308 1.0) (.ofSize 2) ((), []) =
          .error (.resample (.partialRow 166832 8590119956)) ((), [.decode "in.png"]) := by
  have decoded (source : Raster) (recipe : Recipe) :
      (Backend.ofRaster source).recorded.decode recipe.source ((), []) =
        .ok source ((), [.decode recipe.source]) :=
    decode_recorded _ recipe [] rfl
  constructor
  · rw [derive_decoded _ _ _ (decoded _ _), Enlarged.render_panics]
    rfl
  · rw [derive_decoded _ _ _ (decoded _ _), Enlarged.render_refused]
    rfl

end ImageDerivative
