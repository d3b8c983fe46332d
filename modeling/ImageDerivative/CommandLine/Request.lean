import ImageDerivative.CommandLine.Invocation
import ImageDerivative.Config
import ImageDerivative.Decimal.Shortest
import ImageDerivative.Imaging.Recipe

/-! The recipe that the arguments of a scaling stand for. Where they are silent, the
configuration speaks. -/
namespace ImageDerivative.CommandLine

/-- An argument that is well formed, but out of range. -/
inductive ArgumentError where
  | sharpen (amount : Float32)
  | quality (value : Nat)
  | percent (amount : Float)
  | emptyAxis

def ArgumentError.message : ArgumentError → String
  | sharpen amount =>
    "--sharpen must be between 0 and " ++ singleText Config.maxSharpen ++
      ", got " ++ singleText amount
  | quality value => s!"--quality must be between 1 and 100, got {value}"
  | percent amount => "--percent must be positive, got " ++ doubleText amount
  | emptyAxis => "--width and --height must be at least 1"

namespace ScaleArguments

def sharpenAmount (arguments : ScaleArguments) (config : Config) : Except ArgumentError Float32 :=
  match arguments.sharpen with
  | some amount => if Config.withinSharpen amount then .ok amount else .error (.sharpen amount)
  | none => .ok config.sharpen

def encodingQuality (arguments : ScaleArguments) (config : Config) : Except ArgumentError Quality :=
  match arguments.quality with
  | some value => if 1 ≤ value ∧ value ≤ 100 then .ok (.ofNat value) else .error (.quality value)
  | none => .ok config.effectiveQuality

/-- Width and height together make a box, unless they are exact. -/
def axes (arguments : ScaleArguments) : Except ArgumentError ScaleMode :=
  match arguments.width, arguments.height, arguments.percent with
  | some width, some height, _ =>
    .ok (if arguments.exact then .exact width height else .fit width height)
  | some width, none, _ => .ok (.width width)
  | none, some height, _ => .ok (.height height)
  | none, none, some amount =>
    if amount.isFinite && 0.0 < amount then .ok (.percent (.ofFloat amount))
    else .error (.percent amount)
  | none, none, none => .ok .full

def mode (arguments : ScaleArguments) : Except ArgumentError ScaleMode := do
  let mode ← arguments.axes
  if arguments.width = some 0 ∨ arguments.height = some 0 then throw .emptyAxis
  return mode

def recipe (arguments : ScaleArguments) (config : Config) : Except ArgumentError Recipe := do
  let sharpen ← arguments.sharpenAmount config
  let quality ← arguments.encodingQuality config
  return {
    source := arguments.input
    output := arguments.output
    mode := ← arguments.mode
    kernel := arguments.kernel
    policy := config.policy
    sharpen := .ofFloat sharpen
    linear := arguments.linear || config.linear
    quality }

end ScaleArguments

end ImageDerivative.CommandLine
