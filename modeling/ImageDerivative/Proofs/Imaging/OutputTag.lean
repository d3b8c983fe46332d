import ImageDerivative.Proofs.Imaging.Derivation

/-! The tag of what a derivation hands to the encoder. Scaling sets it where it makes a new
raster, blank or resampled, and sharpening keeps it; a source that has the size already goes
through with its own tag, whatever the recipe asks for. -/
namespace ImageDerivative

theorem Interpretation.ofLinear_eq_linear {linear : Bool} :
    ofLinear linear = .linear ↔ linear = true := by
  cases linear <;> decide

theorem Resampling.interpretation_run {F : Type} [Single F] {op : Resampling F}
    {source out : Raster} {given : Option Raster} {pool : WorkerPool}
    (made : op.run source given pool = .ok out) :
    out.interpretation =
      ((op.reused? given).map (·.interpretation)).getD (.ofLinear op.linear) := by
  by_cases refused : op.Refuses source given
  · obtain ⟨error, failed, -⟩ := run_refused refused pool
    cases made.symm.trans failed
  · obtain ⟨_, again, -, -, tag⟩ := run_done refused pool
    cases made.symm.trans again
    exact tag

/-- Scaling to this target passes the source on. -/
def PassesOn (source : Raster) (target : Size) : Prop :=
  Size.Large source.dimensions ∧ source.dimensions = target

section

variable {source : Raster} {out : Bitmap} {target : Size} {kernel : Kernel} {linear : Bool}
  {pool : WorkerPool}

theorem scale_passesOn (passes : PassesOn source target)
    (made : scale source target kernel linear pool = .ok out) : out = source.toBitmap := by
  obtain ⟨large, rfl⟩ := passes
  have busy : (tooSmall source.dimensions || tooSmall source.dimensions) = false := by
    rw [tooSmall_eq_false_iff.mpr large, Bool.or_false]
  simp only [scale, busy, Bool.false_eq_true, if_false, if_true] at made
  cases made
  rfl

/-- Whatever scaling makes itself has the tag that is asked for. -/
theorem interpretation_scale (fresh : ¬ PassesOn source target)
    (made : scale source target kernel linear pool = .ok out) :
    out.interpretation = .ofLinear linear := by
  cases small : tooSmall source.dimensions || tooSmall target with
  | true =>
    simp only [scale, small, if_true] at made
    obtain ⟨blank, -, made⟩ := except_bind_eq_ok.mp made
    cases made
    rfl
  | false =>
    have large := tooSmall_eq_false_iff.mp (Bool.or_eq_false_iff.mp small).1
    have other : source.dimensions ≠ target := fun same => fresh ⟨large, same⟩
    simp only [scale, small, Bool.false_eq_true, if_false, other] at made
    obtain ⟨resampled, ran, made⟩ := except_bind_eq_ok.mp made
    cases made
    exact Resampling.interpretation_run (except_mapError_eq_ok.mp ran)

theorem interpretation_sharpen {bitmap : Bitmap} {amount : Float32}
    (made : sharpen bitmap amount pool = .ok out) : out.interpretation = bitmap.interpretation := by
  unfold sharpen at made
  simp only at made
  split at made
  · cases made
    rfl
  · obtain ⟨_, _, made⟩ := except_bind_eq_ok.mp made
    cases made
    rfl

end

namespace Recipe

variable {recipe : Recipe} {pool : WorkerPool} {source : Raster} {out : Bitmap}
  {derivative : Derivative}

theorem interpretation_render_passesOn (passes : PassesOn source (recipe.target source))
    (made : recipe.render pool source = .ok (derivative, out)) :
    out.interpretation = source.interpretation := by
  obtain ⟨scaled, resized, made⟩ := except_bind_eq_ok.mp made
  obtain ⟨sharpened, masked, made⟩ := except_bind_eq_ok.mp made
  cases made
  rw [interpretation_sharpen masked, scale_passesOn passes resized]

theorem interpretation_render (fresh : ¬ PassesOn source (recipe.target source))
    (made : recipe.render pool source = .ok (derivative, out)) :
    out.interpretation = .ofLinear recipe.linear := by
  obtain ⟨scaled, resized, made⟩ := except_bind_eq_ok.mp made
  obtain ⟨sharpened, masked, made⟩ := except_bind_eq_ok.mp made
  cases made
  rw [interpretation_sharpen masked, interpretation_scale fresh resized]

end Recipe

def callsAfter {ε σ α : Type} : EStateM.Result ε (σ × List BackendCall) α → List BackendCall
  | .ok _ (_, calls) => calls
  | .error _ (_, calls) => calls

section

variable {σ : Type} {backend : Backend σ} {recipe : Recipe} {pool : WorkerPool} {state left : σ}
  {source : Raster}

theorem callsAfter_derive {out : Bitmap} {derivative : Derivative} (calls : List BackendCall)
    (decoded : backend.decode recipe.source state = .ok source left)
    (rendered : recipe.render pool source = .ok (derivative, out)) :
    callsAfter (derive backend.recorded recipe pool (state, calls)) =
      calls ++ [.decode recipe.source, .encode out recipe.output recipe.quality] := by
  rw [derive_decoded _ _ pool (decode_recorded backend recipe calls decoded), rendered]
  simp only [Backend.recorded, recording]
  cases backend.encode out recipe.output recipe.quality left with
  | ok _ _ => simp [callsAfter]
  | error _ _ => simp [callsAfter]

theorem callsAfter_derive_error {fault : RasterFault} (calls : List BackendCall)
    (decoded : backend.decode recipe.source state = .ok source left)
    (failed : recipe.render pool source = .error fault) :
    callsAfter (derive backend.recorded recipe pool (state, calls)) =
      calls ++ [.decode recipe.source] := by
  rw [derive_decoded _ _ pool (decode_recorded backend recipe calls decoded), failed]
  rfl

/-- The tag of what is made of a source in gamma. -/
theorem Recipe.linear_render_iff {out : Bitmap} {derivative : Derivative}
    (gamma : source.interpretation = .gamma)
    (rendered : recipe.render pool source = .ok (derivative, out)) :
    out.interpretation = .linear ↔ recipe.linear = true ∧ ¬ PassesOn source (recipe.target source) := by
  by_cases passes : PassesOn source (recipe.target source)
  · rw [interpretation_render_passesOn passes rendered, gamma]
    constructor
    · intro linear
      cases linear
    · rintro ⟨-, fresh⟩
      exact absurd passes fresh
  · rw [interpretation_render passes rendered, Interpretation.ofLinear_eq_linear]
    exact (and_iff_left passes).symm

/-- What is encoded for a source in gamma is tagged as linear exactly if the recipe asks for it
and the source is not passed on as it is. Nothing is encoded only where no buffers can hold the
derivation. -/
theorem derive_linear_iff (calls : List BackendCall)
    (decoded : backend.decode recipe.source state = .ok source left)
    (gamma : source.interpretation = .gamma) :
    (∃ out, callsAfter (derive backend.recorded recipe pool (state, calls)) =
        calls ++ [.decode recipe.source, .encode out recipe.output recipe.quality] ∧
      (out.interpretation = .linear ↔
        recipe.linear = true ∧ ¬ PassesOn source (recipe.target source))) ∨
    ¬ recipe.Fits source ∧ callsAfter (derive backend.recorded recipe pool (state, calls)) =
      calls ++ [.decode recipe.source] := by
  cases rendered : recipe.render pool source with
  | ok made =>
    exact .inl ⟨made.2, callsAfter_derive calls decoded rendered,
      Recipe.linear_render_iff gamma rendered⟩
  | error fault =>
    refine .inr ⟨fun fits => ?_, callsAfter_derive_error calls decoded rendered⟩
    obtain ⟨_, again, -⟩ := recipe.exists_render pool fits
    cases rendered.symm.trans again

end

/-- Three by three pixels brought to four by five and sharpened, as linear light. -/
theorem derive_linear_iff_resized :
    let source : Raster := ⟨⟨3, 3, 1, .gamma, #[0, 80, 160, 9, 7, 200, 255, 31, 90], by decide⟩, rfl⟩
    let recipe : Recipe :=
      { source := "in.png", output := "out.png", mode := .exact 4 5, kernel := none, policy := {}
        sharpen := .ofFloat 1.5, linear := true, quality := .standard }
    (Backend.ofRaster source).decode recipe.source () = .ok source () ∧
    source.interpretation = .gamma ∧
    ∃ out, callsAfter (derive (Backend.ofRaster source).recorded recipe (.ofSize 2) ((), [])) =
        [.decode recipe.source, .encode out recipe.output recipe.quality] ∧
      (out.interpretation = .linear ↔
        recipe.linear = true ∧ ¬ PassesOn source (recipe.target source)) := by
  intro source recipe
  have decoded : (Backend.ofRaster source).decode recipe.source () = .ok source () := rfl
  have fits : recipe.Fits source := by decide +kernel
  refine ⟨decoded, rfl, ?_⟩
  rcases derive_linear_iff [] decoded rfl with encoded | ⟨long, -⟩
  · exact encoded
  · exact absurd fits long

/-- Three by three pixels kept at their size are not tagged as linear light, though asked to be. -/
theorem derive_sameSize_untagged :
    let source : Raster := ⟨⟨3, 3, 1, .gamma, #[0, 1, 2, 3, 4, 5, 6, 7, 8], by decide⟩, rfl⟩
    let recipe : Recipe :=
      { source := "in.png", output := "out.png", mode := .full, kernel := none, policy := {}
        sharpen := .ofFloat 0.0, linear := true, quality := .standard }
    source.interpretation = .gamma ∧
    ∃ out, callsAfter (derive (Backend.ofRaster source).recorded recipe (.ofSize 2) ((), [])) =
        [.decode recipe.source, .encode out recipe.output recipe.quality] ∧
      ¬ (out.interpretation = .linear ↔ recipe.linear = true) := by
  intro source recipe
  have decoded : (Backend.ofRaster source).decode recipe.source () = .ok source () := rfl
  have large : Size.Large source.dimensions := ⟨by decide, by decide⟩
  have same : source.dimensions = recipe.target source := by decide
  have fits : recipe.Fits source := by decide +kernel
  obtain ⟨out, rendered, -⟩ := recipe.exists_render (.ofSize 2) fits
  refine ⟨rfl, out.toBitmap, callsAfter_derive [] decoded rendered, ?_⟩
  rw [Recipe.interpretation_render_passesOn ⟨large, same⟩ rendered]
  decide

end ImageDerivative
