import Mathlib
import ImageDerivative.Codec.FileBackend
import ImageDerivative.Proofs.Chains
import ImageDerivative.Proofs.Files.Effects
import ImageDerivative.Proofs.Imaging.PoolChoice
import ImageDerivative.Proofs.Imaging.Rasters
import ImageDerivative.Proofs.Imaging.RecipeKey

/-! What a recipe makes of the content of its source: a derivative of a size that fits its
fields, and the content of the output. Neither the pool nor the files around have a part in
it, and of the recipe only what its key covers. -/
namespace ImageDerivative

theorem Sizing.toPixels_lt (v : Float) : toPixels v < 0x100000000 := by
  have word : rounded v ≤ 0xffffffff := Nat.min_le_right _ _
  unfold toPixels
  split
  · omega
  · decide

theorem Bitmap.dimensions_blank {width height channels : Nat} {bitmap : Bitmap}
    (made : blank width height channels = .ok bitmap) : bitmap.dimensions = (width, height) := by
  obtain ⟨same, also, -⟩ := blank_ok_iff.mp made
  exact Prod.ext same also

theorem UnsharpMask.dimensions_apply {F : Type} [Single F] {mask : UnsharpMask F}
    {raster out : Raster} {pool : WorkerPool} {pass : Nat}
    (made : mask.apply raster pool pass = .ok out) : out.dimensions = raster.dimensions := by
  obtain ⟨_, _, made⟩ := except_bind_eq_ok.mp made
  cases made
  rfl

theorem Resampling.dimensions_run {F : Type} [Single F] {op : Resampling F} {source out : Raster}
    {pool : WorkerPool} (made : op.run source none pool = .ok out) :
    out.dimensions = (op.width, op.height) := by
  by_cases small : op.width < ResampleError.minTarget ∨ op.height < ResampleError.minTarget
  · simp only [run, if_pos small] at made
    cases made
  by_cases empty : source.width = 0 ∨ source.height = 0
  · simp only [run, if_neg small, if_pos empty] at made
    cases made
  simp only [run, if_neg small, if_neg empty] at made
  obtain ⟨fresh, chosen, made⟩ := except_bind_eq_ok.mp made
  obtain ⟨_, _, chosen⟩ := except_bind_eq_ok.mp chosen
  cases chosen
  obtain ⟨_, _, made⟩ := except_bind_eq_ok.mp made
  obtain ⟨_, _, made⟩ := except_bind_eq_ok.mp made
  exact UnsharpMask.dimensions_apply made

theorem dimensions_scale {source : Raster} {out : Bitmap} {target : Size} {kernel : Kernel}
    {linear : Bool} {pool : WorkerPool} (made : scale source target kernel linear pool = .ok out) :
    out.dimensions = target := by
  unfold scale at made
  split at made
  · obtain ⟨blank, cleared, made⟩ := except_bind_eq_ok.mp made
    cases made
    change blank.dimensions = target
    exact Bitmap.dimensions_blank cleared
  · split at made
    next same =>
      cases made
      exact same
    next =>
      obtain ⟨resampled, ran, made⟩ := except_bind_eq_ok.mp made
      cases made
      exact Resampling.dimensions_run (except_mapError_eq_ok.mp ran)

theorem dimensions_sharpen {bitmap out : Bitmap} {amount : Float32} {pool : WorkerPool}
    (made : sharpen bitmap amount pool = .ok out) : out.dimensions = bitmap.dimensions := by
  unfold sharpen at made
  simp only at made
  split at made
  · cases made
    rfl
  · obtain ⟨_, _, made⟩ := except_bind_eq_ok.mp made
    cases made
    rfl

namespace Recipe

/-- The derivative of a source and the bitmap to be encoded. -/
def render (recipe : Recipe) (pool : WorkerPool) (source : Raster) :
    Except RasterFault (Derivative × Bitmap) := do
  let target := resultingSize source.dimensions recipe.mode
  let kernel := chooseKernel recipe.kernel source.dimensions target recipe.policy
  let scaled ← scale source target kernel recipe.linear pool
  let out ← ImageDerivative.sharpen scaled recipe.sharpen.toFloat pool
  return ({
    sourceSize := source.dimensions, size := out.dimensions, channels := out.channels, kernel }, out)

theorem poolFree_render (recipe : Recipe) (source : Raster) :
    PoolFree fun pool => recipe.render pool source :=
  PoolFree.bind (poolFree_scale _ _ _ _) fun _ => .bind (poolFree_sharpen _ _) fun _ => .const _

theorem Agree.render_eq {a b : Recipe} (agree : a.Agree b) (pool : WorkerPool) (source : Raster) :
    a.render pool source = b.render pool source := by
  unfold render
  simp only [agree.mode, agree.chooseKernel_eq, agree.sharpen, agree.linear]

theorem size_render {recipe : Recipe} {pool : WorkerPool} {source : Raster} {out : Bitmap}
    {derivative : Derivative} (made : recipe.render pool source = .ok (derivative, out)) :
    derivative.size = resultingSize source.dimensions recipe.mode := by
  obtain ⟨scaled, resized, made⟩ := except_bind_eq_ok.mp made
  obtain ⟨sharpened, masked, made⟩ := except_bind_eq_ok.mp made
  cases made
  exact (dimensions_sharpen masked).trans (dimensions_scale resized)

theorem liftRaster_bind {σ α β : Type} (first : Except RasterFault α)
    (next : α → Except RasterFault β) :
    (liftRaster (first >>= next) : EStateM BackendError σ β) =
      liftRaster first >>= fun a => liftRaster (next a) := by
  cases first <;> rfl

theorem liftRaster_eq_ok {σ α : Type} {made : Except RasterFault α} {a : α} {s t : σ} :
    liftRaster made s = .ok a t ↔ made = .ok a ∧ t = s := by
  cases made with
  | error fault => simp [liftRaster, throw, throwThe, MonadExceptOf.throw, EStateM.throw]
  | ok a => simp [liftRaster, pure, EStateM.pure, eq_comm]

theorem liftRaster_pure {σ α : Type} (a : α) :
    (liftRaster (pure a) : EStateM BackendError σ α) = pure a := rfl

/-- A derivation in one step between decoding and encoding. -/
theorem derive_eq_render {σ : Type} (backend : Backend σ) (recipe : Recipe) (pool : WorkerPool) :
    derive backend recipe pool = do
      let source ← backend.decode recipe.source
      let (derivative, out) ← liftRaster (recipe.render pool source)
      backend.encode out recipe.output recipe.quality
      return derivative := by
  unfold derive render
  simp only [liftRaster_bind, liftRaster_pure, bind_assoc, pure_bind]

/-- A recipe makes a derivative of the content of its source, and with it the content of its
output. -/
inductive Makes (codecs : Codecs) (recipe : Recipe) (content : Bytes) : Derivative → Bytes → Prop
  | intro {source out : Raster} {derivative : Derivative} {format : Format} {file : Bytes}
      (pool : WorkerPool) (decoded : codecs.decode? content = some source)
      (rendered : recipe.render pool source = .ok (derivative, out.toBitmap))
      (chosen : FileBackend.outputFormat recipe.output = .ok format)
      (encoded : codecs.encode? format recipe.quality out = some file) :
      Makes codecs recipe content derivative file

namespace Makes

variable {codecs : Codecs} {recipe : Recipe} {content file : Bytes} {derivative : Derivative}

theorem agree {other : Recipe} (agree : recipe.Agree other)
    (makes : recipe.Makes codecs content derivative file) :
    other.Makes codecs content derivative file := by
  obtain ⟨pool, decoded, rendered, chosen, encoded⟩ := makes
  rw [agree.render_eq] at rendered
  rw [agree.outputFormat_eq] at chosen
  rw [agree.quality] at encoded
  exact ⟨pool, decoded, rendered, chosen, encoded⟩

theorem unique {other : Derivative} {also : Bytes}
    (makes : recipe.Makes codecs content derivative file)
    (again : recipe.Makes codecs content other also) : derivative = other ∧ file = also := by
  obtain ⟨pool, decoded, rendered, chosen, encoded⟩ := makes
  obtain ⟨_, decoded', rendered', chosen', encoded'⟩ := again
  cases decoded.symm.trans decoded'
  obtain ⟨rfl, same⟩ := Prod.mk.inj
    (Except.ok.inj ((recipe.poolFree_render _ rendered _).symm.trans rendered'))
  obtain rfl := Raster.toBitmap_inj same
  cases chosen.symm.trans chosen'
  cases encoded.symm.trans encoded'
  exact ⟨rfl, rfl⟩

/-- The size of a derivative fits into two fields of 32 bits. -/
theorem size_lt (makes : recipe.Makes codecs content derivative file) :
    derivative.size.1 < 0x100000000 ∧ derivative.size.2 < 0x100000000 := by
  obtain ⟨_, _, rendered, _, _⟩ := makes
  rw [size_render rendered]
  exact ⟨Sizing.toPixels_lt _, Sizing.toPixels_lt _⟩

end Makes

end Recipe

namespace FileBackend

variable {codecs : Codecs} {path : Path} {tree left : FileTree}

theorem onFiles_eq_ok {α : Type} {error : IoFailure → BackendError} {action : Files α} {a : α} :
    onFiles error action tree = .ok a left ↔ action tree = .ok a left := by
  unfold onFiles
  cases action tree <;> simp

theorem decode_eq_ok {raster : Raster} :
    decode codecs path tree = .ok raster left ↔
      (∃ content, tree.node? path = some (.file content) ∧ codecs.decode? content = some raster) ∧
        left = tree := by
  unfold decode
  rw [state_bind_eq_ok]
  constructor
  · rintro ⟨content, between, ran, made⟩
    obtain ⟨found, rfl⟩ := Files.read_ok_iff.mp (onFiles_eq_ok.mp ran)
    cases decoded : codecs.decode? content with
    | none =>
      rw [decoded] at made
      cases made
    | some raster =>
      rw [decoded] at made
      cases made
      exact ⟨⟨content, found, decoded⟩, rfl⟩
  · rintro ⟨⟨content, found, decoded⟩, rfl⟩
    refine ⟨content, left, onFiles_eq_ok.mpr (Files.read_ok_iff.mpr ⟨found, rfl⟩), ?_⟩
    rw [decoded]
    rfl

theorem encode_eq_ok {bitmap : Bitmap} {quality : Quality} :
    encode codecs bitmap path quality tree = .ok () left ↔
      ∃ format raster file, outputFormat path = .ok format ∧ Raster.toBitmap raster = bitmap ∧
        codecs.encode? format quality raster = some file ∧
        Files.write path file tree = .ok () left := by
  simp only [← Bitmap.whole?_eq_some_iff]
  unfold encode
  cases outputFormat path with
  | error error => simp [throw, throwThe, MonadExceptOf.throw, EStateM.throw]
  | ok format =>
    cases bitmap.whole? with
    | none => simp [throw, throwThe, MonadExceptOf.throw, EStateM.throw]
    | some raster =>
      cases encoded : codecs.encode? format quality raster with
      | none => simp [encoded, throw, throwThe, MonadExceptOf.throw, EStateM.throw]
      | some file => simp [encoded, onFiles_eq_ok]

end FileBackend

/-- A derivation succeeds exactly if the source can be read, the recipe makes something of
its content, and the output can be written. With which pool it runs does not matter. -/
theorem derive_eq_ok {codecs : Codecs} {recipe : Recipe} {pool : WorkerPool}
    {tree left : FileTree} {derivative : Derivative} :
    derive (fileBackend codecs) recipe pool tree = .ok derivative left ↔
      ∃ content file, tree.node? recipe.source = some (.file content) ∧
        recipe.Makes codecs content derivative file ∧
        Files.write recipe.output file tree = .ok () left := by
  rw [Recipe.derive_eq_render, state_bind_eq_ok]
  simp only [fileBackend]
  constructor
  · rintro ⟨source, between, read, ran⟩
    obtain ⟨⟨content, found, decoded⟩, rfl⟩ := FileBackend.decode_eq_ok.mp read
    obtain ⟨⟨made, out⟩, _, lifted, rest⟩ := state_bind_eq_ok.mp ran
    obtain ⟨rendered, rfl⟩ := Recipe.liftRaster_eq_ok.mp lifted
    obtain ⟨_, _, written, last⟩ := state_bind_eq_ok.mp rest
    obtain ⟨format, raster, file, chosen, rfl, encoded, put⟩ := FileBackend.encode_eq_ok.mp written
    cases last
    exact ⟨content, file, found, ⟨pool, decoded, rendered, chosen, encoded⟩, put⟩
  · rintro ⟨content, file, found, ⟨_, decoded, rendered, chosen, encoded⟩, put⟩
    have again := recipe.poolFree_render _ rendered pool
    refine ⟨_, tree, FileBackend.decode_eq_ok.mpr ⟨⟨content, found, decoded⟩, rfl⟩, ?_⟩
    refine state_bind_eq_ok.mpr ⟨_, tree, Recipe.liftRaster_eq_ok.mpr ⟨again, rfl⟩, ?_⟩
    refine state_bind_eq_ok.mpr ⟨(), left, ?_, rfl⟩
    exact FileBackend.encode_eq_ok.mpr ⟨_, _, file, chosen, rfl, encoded, put⟩

end ImageDerivative
