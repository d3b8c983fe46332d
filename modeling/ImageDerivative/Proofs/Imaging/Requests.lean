import ImageDerivative.Proofs.Chains
import ImageDerivative.Proofs.Imaging.Sharpening

/-! Every request to resample is answered. It is refused for what it asks, or it is done:
no index of the two passes or of the sharpening lies outside what it indexes, whatever the
arithmetic of the weights comes to. -/
namespace ImageDerivative

variable {F : Type} [Single F]

namespace Resampling

/-- The raster that is written into instead of a new one. -/
def reused? (op : Resampling F) (given : Option Raster) : Option Raster :=
  given.filter fun raster => raster.dimensions = (op.width, op.height)

/-- What a request is refused for. -/
def Refuses (op : Resampling F) (source : Raster) (given : Option Raster) : Prop :=
  op.width < 3 ∨ op.height < 3 ∨ source.width = 0 ∨ source.height = 0 ∨
    ∃ raster ∈ op.reused? given, raster.channels ≠ source.channels

section

variable {op : Resampling F} {source out : Raster} {given : Option Raster} {channels : Nat}

omit [Single F] in
theorem destination_mismatch {raster : Raster} (kept : raster ∈ op.reused? given)
    (other : raster.channels ≠ channels) :
    op.destination channels given = .error (.channelMismatch channels raster.channels) := by
  obtain ⟨rfl, same⟩ := Option.filter_eq_some_iff.mp kept
  simp only [decide_eq_true_eq] at same
  simp only [destination, same, ne_eq, not_true_eq_false, if_false, other, not_false_eq_true, if_true]
  rfl

omit [Single F] in
theorem destination_interpretation (chosen : op.destination channels given = .ok out) :
    out.interpretation =
      ((op.reused? given).map (·.interpretation)).getD (.ofLinear op.linear) := by
  have fresh (made : op.fresh channels = .ok out) : out.interpretation = .ofLinear op.linear := by
    obtain ⟨_, -, made⟩ := except_bind_eq_ok.mp made
    cases made
    rfl
  cases given with
  | none => exact fresh chosen
  | some raster =>
    by_cases same : raster.dimensions = (op.width, op.height)
    · have kept : op.reused? (some raster) = some raster := by simp [reused?, same]
      simp only [destination, same, ne_eq, not_true_eq_false, if_false] at chosen
      split at chosen
      · cases chosen
      · cases chosen
        rw [kept]
        rfl
    · have dropped : op.reused? (some raster) = none := by simp [reused?, same]
      simp only [destination, same, ne_eq, not_false_eq_true, if_true] at chosen
      rw [dropped]
      exact fresh chosen

theorem run_refused (refused : op.Refuses source given) (pool : WorkerPool) :
    ∃ error, op.run source given pool = .error error ∧ error.isInvalidArgument = true := by
  by_cases small : op.width < ResampleError.minTarget ∨ op.height < ResampleError.minTarget
  · exact ⟨.targetTooSmall op.width op.height, by simp only [run, small, if_true]; rfl, rfl⟩
  by_cases empty : source.width = 0 ∨ source.height = 0
  · exact ⟨.emptySource source.width source.height,
      by simp only [run, small, if_false, empty, if_true]; rfl, rfl⟩
  obtain ⟨raster, kept, other⟩ : ∃ raster ∈ op.reused? given, raster.channels ≠ source.channels := by
    simp only [ResampleError.minTarget, not_or] at small empty
    rcases refused with narrow | low | thin | flat | mismatch
    · exact absurd narrow small.1
    · exact absurd low small.2
    · exact absurd thin empty.1
    · exact absurd flat empty.2
    · exact mismatch
  refine ⟨.channelMismatch source.channels raster.channels, ?_, rfl⟩
  simp only [run, small, if_false, empty, destination_mismatch kept other]
  rfl

omit [Single F] in
/-- What a request that is not refused writes into. -/
theorem exists_destination (accepted : ¬ op.Refuses source given) :
    ∃ out, op.destination source.channels given = .ok out ∧
      out.width = op.width ∧ out.height = op.height ∧ out.channels = source.channels := by
  apply op.destination_ok source.channels_valid
  intro raster member same
  by_contra other
  refine accepted (.inr (.inr (.inr (.inr ⟨raster, ?_, other⟩))))
  simp [reused?, Option.mem_def.mp member, same]

omit [Single F] in
theorem large_of_accepted (accepted : ¬ op.Refuses source given) :
    (3 ≤ op.width ∧ 3 ≤ op.height) ∧ 0 < source.width ∧ 0 < source.height := by
  simp only [Refuses, not_or] at accepted
  omega

/-- A request that is not refused sharpens the resampled image. -/
theorem exists_resampled (accepted : ¬ op.Refuses source given) :
    ∃ resampled : Raster, resampled.width = op.width ∧ resampled.height = op.height ∧
      resampled.channels = source.channels ∧
      resampled.interpretation =
        ((op.reused? given).map (·.interpretation)).getD (.ofLinear op.linear) ∧
      Holds resampled.samples op.width op.height source.channels
        (reference F op.kernel source.dimensions (op.width, op.height) source.sample) ∧
      ∀ pool, op.run source given pool =
        (UnsharpMask.ofAmount op.unsharp).apply resampled pool 2 := by
  obtain ⟨large, wide, high⟩ := large_of_accepted accepted
  obtain ⟨out, chosen, outWidth, outHeight, outChannels⟩ := exists_destination accepted
  have stride : 0 < op.width * source.channels :=
    Nat.mul_pos (by omega) source.channels_valid.1
  have whole : out.samples.size = op.height * (op.width * source.channels) := by
    rw [out.stride_whole, Bitmap.stride, outWidth, outHeight, outChannels]
  let image := alongRows F op.kernel source.width op.width source.sample
  obtain ⟨work, held, first⟩ := WorkerPool.forEachRow_holds
    (Vector.replicate (source.height * (op.width * source.channels)) 0)
    (horizontalRow source (.build op.kernel source.width op.width : Contributions F) _) image
    stride rfl fun y above => horizontalRow_ok op.kernel wide above _
  obtain ⟨samples, holds, second⟩ := WorkerPool.forEachRow_holds out.toVector
    (verticalRow work.toArray (.build op.kernel source.height op.height : Contributions F) _)
    (alongColumns F op.kernel source.height op.height image) stride whole fun y above =>
      verticalRow_ok op.kernel image source.channels high above
        (fun r below s left => held.inRow below left) _
  have tag := destination_interpretation chosen
  exact ⟨out.withSamples samples, outWidth, outHeight, outChannels, tag, holds, fun pool =>
    run_eq_apply large ⟨wide, high⟩ chosen (first pool 0) (second pool 1)⟩

theorem run_done (accepted : ¬ op.Refuses source given) (pool : WorkerPool) :
    ∃ out, op.run source given pool = .ok out ∧ out.dimensions = (op.width, op.height) ∧
      out.channels = source.channels ∧
      out.interpretation =
        ((op.reused? given).map (·.interpretation)).getD (.ofLinear op.linear) := by
  obtain ⟨resampled, width, height, channels, tag, -, ran⟩ := exists_resampled accepted
  obtain ⟨samples, sharpened⟩ :=
    (UnsharpMask.ofAmount op.unsharp).exists_samplesOf resampled pool 2
  exact ⟨_, (ran pool).trans (UnsharpMask.apply_of_samplesOf sharpened), Prod.ext width height,
    channels, tag⟩

end

/-- A request is refused exactly if its target has an axis below three, its source has an
empty one, or the raster to be written into has other channels. All other requests are
done: the result has the size of the target and the channels of the source, and its tag is
that of the raster written into, if there was one. -/
theorem run_answers (op : Resampling F) (source : Raster) (given : Option Raster)
    (pool : WorkerPool) :
    ((∃ error, op.run source given pool = .error error ∧ error.isInvalidArgument = true) ↔
      op.Refuses source given) ∧
    (op.Refuses source given ∨ ∃ out, op.run source given pool = .ok out ∧
      out.dimensions = (op.width, op.height) ∧ out.channels = source.channels ∧
      out.samples.size = op.width * op.height * source.channels ∧
      out.interpretation =
        ((op.reused? given).map (·.interpretation)).getD (.ofLinear op.linear)) := by
  by_cases refused : op.Refuses source given
  · exact ⟨⟨fun _ => refused, fun _ => run_refused refused pool⟩, .inl refused⟩
  · obtain ⟨out, ran, dimensions, channels, tag⟩ := run_done refused pool
    have size : out.samples.size = op.width * op.height * source.channels := by
      obtain ⟨width, height⟩ := Prod.mk.inj dimensions
      rw [out.size_eq, width, height, channels]
    refine ⟨⟨?_, fun again => absurd again refused⟩, .inr ⟨out, ran, dimensions, channels, size, tag⟩⟩
    rintro ⟨error, failed, -⟩
    rw [ran] at failed
    cases failed

end Resampling

end ImageDerivative
