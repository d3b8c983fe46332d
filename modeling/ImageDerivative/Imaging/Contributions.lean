import ImageDerivative.Imaging.Kernel

/-! Which source samples feed each destination sample along one axis, and with
what weights. The entries of all destination indices stand one after the other;
`offsets` says where those of each index begin and end. -/
namespace ImageDerivative

structure Contributions (F : Type) where
  offsets : Array Nat
  pixels : Array Nat
  weights : Array F

namespace Contributions

variable {F : Type} [Single F]

open Single

/-- How a kernel is laid over an axis: `scale` destination samples for one source
sample. Shrinking widens the kernel to cover every source pixel that falls under
one destination pixel. -/
structure Spread (F : Type) where
  scale : F
  centerOffset : F
  /-- How far the widened kernel reaches. -/
  width : F
  /-- The factor that takes a distance back to the kernel. -/
  norm : F

def Spread.of (kernel : Kernel) (source destination : Nat) : Spread F :=
  let scale : F := ofNat destination / ofNat source
  let radius := kernel.radius
  let centerOffset := 0.5 / scale
  if lt scale 1.0 then
    let width := radius / scale
    { scale, centerOffset, width, norm := 1.0 / (ceil width / radius) }
  else { scale, centerOffset, width := radius, norm := 1.0 }

/-- The center of a destination sample among the source samples. -/
def Spread.center (spread : Spread F) (index : Nat) : F :=
  ofNat index / spread.scale + spread.centerOffset

/-- The integers from `left` to `right`, both included. -/
def span (left right : Int) : List Int :=
  (List.range (right - left + 1).toNat).map fun k => left + Int.ofNat k

/-- The positions that the kernel covers around a center. -/
def Spread.candidates (spread : Spread F) (center : F) : List Int :=
  span (toInt (floor (center - spread.width))) (toInt (ceil (center + spread.width)))

/-- Mirrors a position outside the source back into it, once. -/
def reflect (position size : Int) : Int :=
  if position < 0 then -position
  else if position ≥ size then 2 * size - position - 1
  else position

/-- The entry of a candidate. One that is still outside after a reflection, as in
a tiny source, keeps its place with weight zero. -/
def entryOf (source : Nat) (position : Int) (weight : F) : Nat × F :=
  let mirrored := reflect position source
  if 0 ≤ mirrored ∧ mirrored < source then (mirrored.toNat, weight)
  else ((min (Int.toNat mirrored) (source - 1)), 0.0)

/-- The entries of a destination index before they are normalized: one for each
candidate whose weight is not zero. -/
def rawEntries (kernel : Kernel) (source : Nat) (spread : Spread F) (index : Nat) :
    List (Nat × F) :=
  let center := spread.center index
  (spread.candidates center).filterMap fun position =>
    let weight := kernel.weight ((center - ofInt position) * spread.norm)
    if eq weight 0.0 then none else some (entryOf source position weight)

/-- Divides the weights by their sum, unless that is zero. -/
def normalize (entries : List (Nat × F)) : List (Nat × F) :=
  let total := sum (entries.map Prod.snd)
  if eq total 0.0 then entries else entries.map fun (pixel, weight) => (pixel, weight / total)

/-- One row of entries put after those of the indices before it. -/
def push (table : Contributions F) (entries : List (Nat × F)) : Contributions F :=
  let pixels := table.pixels ++ (entries.map Prod.fst).toArray
  { offsets := table.offsets.push pixels.size
    pixels
    weights := table.weights ++ (entries.map Prod.snd).toArray }

def empty : Contributions F := ⟨#[0], #[], #[]⟩

/-- The table that maps `source` samples onto `destination` samples. -/
def build (kernel : Kernel) (source destination : Nat) : Contributions F :=
  let spread := Spread.of kernel source destination
  (List.range destination).foldl
    (fun table index => table.push (normalize (rawEntries kernel source spread index))) empty

def size (table : Contributions F) : Nat := table.offsets.size - 1

def isEmpty (table : Contributions F) : Bool := table.size = 0

def entries? (table : Contributions F) (index : Nat) : Option (List (Nat × F)) := do
  let start ← table.offsets[index]?
  let stop ← table.offsets[index + 1]?
  return (table.pixels.extract start stop).toList.zip (table.weights.extract start stop).toList

def rows (table : Contributions F) : List (List (Nat × F)) :=
  (List.range table.size).filterMap table.entries?

def weightSum (entries : List (Nat × F)) : F := sum (entries.map Prod.snd)

def maxContributors (table : Contributions F) : Nat :=
  table.rows.foldl (fun most row => max most row.length) 0

end Contributions

end ImageDerivative
