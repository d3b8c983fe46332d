import ImageDerivative.Files.Path
import ImageDerivative.Imaging.Sizing
import ImageDerivative.Imaging.Unsharp
import ImageDerivative.Sha256

/-! What makes one derivative, and the key it is known by. The key covers all that
shapes the encoded image, and neither of the two paths but for the extension of
the output, which selects the encoder. -/
namespace ImageDerivative

structure Quality where
  value : Nat
  deriving DecidableEq, Repr

/-- The nearest quality from 1 to 100. -/
def Quality.ofNat (n : Nat) : Quality := ⟨min (max n 1) 100⟩

def Quality.standard : Quality := ⟨90⟩

structure Recipe where
  source : Path
  output : Path
  mode : ScaleMode
  /-- The kernel asked for, if any. -/
  kernel : Option Kernel
  policy : KernelPolicy
  /-- The amount of the unsharp mask. -/
  sharpen : Binary32
  linear : Bool
  quality : Quality

namespace Recipe

def modeBytes : ScaleMode → Bytes
  | .full => Bytes.ofText "full"
  | .width target => Bytes.ofText "w" ++ Bytes.toLittleEndian 4 target
  | .height target => Bytes.ofText "h" ++ Bytes.toLittleEndian 4 target
  | .fit width height =>
    Bytes.ofText "fit" ++ Bytes.toLittleEndian 4 width ++ Bytes.toLittleEndian 4 height
  | .exact width height =>
    Bytes.ofText "exact" ++ Bytes.toLittleEndian 4 width ++ Bytes.toLittleEndian 4 height
  | .percent amount => Bytes.ofText "pct" ++ Bytes.toLittleEndian 8 amount.bits.toNat

/-- An explicit kernel, or the policy that stands in for it. -/
def kernelBytes (kernel : Option Kernel) (policy : KernelPolicy) : Bytes :=
  match kernel with
  | some kernel => 1 :: Bytes.ofText kernel.name
  | none => 0 :: (Bytes.ofText policy.downscale.name ++ Bytes.ofText "/" ++
      Bytes.ofText policy.upscale.name)

/-- The bytes whose digest is the key. -/
def keyBytes (recipe : Recipe) : Bytes :=
  Bytes.ofText "derive" ++ [0] ++ modeBytes recipe.mode ++ [0] ++
    kernelBytes recipe.kernel recipe.policy ++ [0] ++
    Bytes.toLittleEndian 4 recipe.sharpen.bits.toNat ++
    [if recipe.linear then 1 else 0] ++
    Bytes.toLittleEndian 4 recipe.quality.value ++
    Bytes.ofText (Path.lowerExtension recipe.output)

def hash (recipe : Recipe) : String := (Sha256.digest recipe.keyBytes).toHex

end Recipe

end ImageDerivative
