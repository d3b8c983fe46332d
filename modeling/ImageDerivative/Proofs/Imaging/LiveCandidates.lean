import Mathlib.Data.List.Forall2
import ImageDerivative.Proofs.Imaging.ContributionRows

/-! The shape of a table of contributions, and what is in it before the weights are normalized:
an entry of each candidate that has a weight, from left to right. Normalizing touches nothing
but the weights. -/
namespace ImageDerivative.Contributions

variable {F : Type}

/-- The ranges of `destination` indices lie end to end over both columns, and every index names
a sample of the source. -/
structure WellFormed (table : Contributions F) (source destination : Nat) : Prop where
  size : table.offsets.size = destination + 1
  first : table.offsets[0]? = some 0
  ordered : table.offsets.toList.Pairwise (· ≤ ·)
  last : table.offsets[destination]? = some table.pixels.size
  paired : table.weights.size = table.pixels.size
  inside : ∀ pixel ∈ table.pixels, pixel < source

namespace Represents

variable {table other : Contributions F} {rows others : List (List (Nat × F))}

theorem ordered (held : table.Represents rows) : table.offsets.toList.Pairwise (· ≤ ·) := by
  rw [held.offsets, List.pairwise_map]
  refine List.pairwise_lt_range.imp fun {i j} before => ?_
  obtain ⟨more, same⟩ : rows.take i <+: rows.take j :=
    List.take_prefix_take_left (Nat.le_of_lt before)
  rw [← same, List.flatten_append, List.length_append]
  exact Nat.le_add_right _ _

theorem wellFormed (held : table.Represents rows) {source : Nat}
    (inside : ∀ row ∈ rows, ∀ entry ∈ row, entry.1 < source) :
    table.WellFormed source rows.length where
  size := by
    rw [← Array.length_toList, held.offsets, List.length_map, List.length_range]
  first := held.offset (Nat.zero_le _)
  ordered := held.ordered
  last := by
    rw [held.offset (Nat.le_refl _), List.take_length, ← Array.length_toList, held.pixels,
      List.length_map]
  paired := by
    rw [← Array.length_toList, held.weights, ← Array.length_toList, held.pixels, List.length_map,
      List.length_map]
  inside := by
    intro pixel member
    rw [← Array.mem_toList_iff, held.pixels, List.mem_map] at member
    obtain ⟨entry, placed, rfl⟩ := member
    obtain ⟨row, among, within⟩ := List.mem_flatten.mp placed
    exact inside row among entry within

/-- Offsets and pixels do not depend on the weights. -/
theorem same_places (held : table.Represents rows) (also : other.Represents others)
    (same : rows.map (List.map Prod.fst) = others.map (List.map Prod.fst)) :
    table.offsets = other.offsets ∧ table.pixels = other.pixels := by
  have length : rows.length = others.length := by simpa using congrArg List.length same
  have before (i : Nat) : (rows.take i).flatten.length = (others.take i).flatten.length := by
    have part := congrArg (fun rows => (rows.take i).flatten.length) same
    simpa only [← List.map_take, ← List.map_flatten, List.length_map] using part
  constructor
  · apply Array.toList_inj.mp
    simp only [held.offsets, also.offsets, length, before]
  · apply Array.toList_inj.mp
    rw [held.pixels, also.pixels, List.map_flatten, List.map_flatten, same]

end Represents

variable [Single F]

open Single

theorem mem_span {left right j : Int} : j ∈ span left right ↔ left ≤ j ∧ j ≤ right := by
  simp only [span, List.mem_map, List.mem_range]
  constructor
  · rintro ⟨k, short, rfl⟩
    simp only [Int.ofNat_eq_natCast]
    omega
  · rintro ⟨first, last⟩
    exact ⟨(j - left).toNat, by omega, by simp only [Int.ofNat_eq_natCast]; omega⟩

theorem pairwise_span (left right : Int) : (span left right).Pairwise (· < ·) := by
  rw [span, List.pairwise_map]
  refine List.pairwise_lt_range.imp fun before => ?_
  simp only [Int.ofNat_eq_natCast]
  omega

namespace Spread

def left (spread : Spread F) (index : Nat) : Int :=
  toInt (floor (spread.center index - spread.width))

def right (spread : Spread F) (index : Nat) : Int :=
  toInt (ceil (spread.center index + spread.width))

def weigh (spread : Spread F) (kernel : Kernel) (index : Nat) (j : Int) : F :=
  kernel.weight ((spread.center index - ofInt j) * spread.norm)

end Spread

/-- `image` is `j` mirrored once, at the edge that it is past if there is one: on the left at the
first sample, on the right behind the last one. -/
structure Mirrors (size j image : Int) : Prop where
  left : j < 0 → image = -j
  within : 0 ≤ j → j < size → image = j
  right : size ≤ j → image = 2 * size - j - 1

/-- What is recorded of a candidate: its mirror image with its weight, or the sample nearest to
an image outside the source, without weight. -/
def Recorded (source : Nat) (j : Int) (weight : F) (entry : Nat × F) : Prop :=
  ∃ image, Mirrors source j image ∧ (entry.1 : Int) = max 0 (min image (source - 1)) ∧
    entry.2 = if 0 ≤ image ∧ image < source then weight else 0.0

/-- The row has an entry of each candidate whose weight is not zero, from left to right. -/
def RecordsLive (kernel : Kernel) (source : Nat) (spread : Spread F) (index : Nat)
    (row : List (Nat × F)) : Prop :=
  ∃ live : List Int, live.Pairwise (· < ·) ∧
    (∀ j, j ∈ live ↔ spread.left index ≤ j ∧ j ≤ spread.right index ∧
      eq (spread.weigh kernel index j) 0.0 = false) ∧
    List.Forall₂ (fun j => Recorded source j (spread.weigh kernel index j)) live row

theorem reflect_mirrors {size : Int} (some : 0 < size) (j : Int) :
    Mirrors size j (reflect j size) := by
  unfold reflect
  constructor
  · intro past
    rw [if_pos past]
  · intro first last
    rw [if_neg (by omega), if_neg (by omega)]
  · intro past
    rw [if_neg (by omega), if_pos past]

example : reflect (-2) 10 = 2 ∧ reflect 11 10 = 8 ∧ reflect (-5) 3 = 5 := by decide

theorem entryOf_recorded {source : Nat} (some : 0 < source) (j : Int) (weight : F) :
    Recorded source j weight (entryOf source j weight) := by
  refine ⟨reflect j source, reflect_mirrors (by omega) j, ?_⟩
  unfold entryOf
  simp only
  split
  · exact ⟨by simp only; omega, rfl⟩
  · exact ⟨by simp only; omega, rfl⟩

/-- The candidates of an index that the kernel gives a weight. -/
def live (kernel : Kernel) (spread : Spread F) (index : Nat) : List Int :=
  (span (spread.left index) (spread.right index)).filter fun j =>
    !eq (spread.weigh kernel index j) 0.0

theorem mem_live {kernel : Kernel} {spread : Spread F} {index : Nat} {j : Int} :
    j ∈ live kernel spread index ↔ spread.left index ≤ j ∧ j ≤ spread.right index ∧
      eq (spread.weigh kernel index j) 0.0 = false := by
  rw [live, List.mem_filter, mem_span, Bool.not_eq_true', and_assoc]

theorem rawEntries_eq (kernel : Kernel) (source : Nat) (spread : Spread F) (index : Nat) :
    rawEntries kernel source spread index = (live kernel spread index).map fun j =>
      entryOf source j (spread.weigh kernel index j) := by
  rw [live, ← List.filterMap_eq_map, List.filterMap_filter]
  refine List.filterMap_congr fun j _ => ?_
  show (if eq (spread.weigh kernel index j) 0.0 then none else _) = _
  cases eq (spread.weigh kernel index j) 0.0 with
  | false => rfl
  | true => rfl

theorem rawEntries_recordsLive (kernel : Kernel) {source : Nat} (some : 0 < source)
    (spread : Spread F) (index : Nat) :
    RecordsLive kernel source spread index (rawEntries kernel source spread index) := by
  refine ⟨live kernel spread index, (pairwise_span _ _).filter _, fun j => mem_live, ?_⟩
  rw [rawEntries_eq, List.forall₂_map_right_iff, List.forall₂_same]
  exact fun j _ => entryOf_recorded some j _

/-- The table before the weights of each index are divided by their sum. -/
def gathered (kernel : Kernel) (source destination : Nat) : Contributions F :=
  (List.range destination).foldl (fun table index =>
    table.push (rawEntries kernel source (Spread.of kernel source destination) index)) empty

theorem gathered_represents (kernel : Kernel) (source destination : Nat) :
    (gathered kernel source destination : Contributions F).Represents ((List.range destination).map
      (rawEntries kernel source (Spread.of kernel source destination))) :=
  represents_range (rawEntries kernel source (Spread.of kernel source destination)) destination

/-- Whatever the arithmetic answers, a table is well formed. Without the normalization it has
the same offsets and the same pixels, and each index has an entry of each of its candidates
whose weight is not zero, from left to right; with it, their weights are normalized. -/
theorem build_recordsLive (kernel : Kernel) {source : Nat} (some : 0 < source) (destination : Nat) :
    (build kernel source destination : Contributions F).WellFormed source destination ∧
    (gathered kernel source destination : Contributions F).offsets =
        (build kernel source destination : Contributions F).offsets ∧
    (gathered kernel source destination : Contributions F).pixels =
        (build kernel source destination : Contributions F).pixels ∧
    ∀ index < destination, ∃ row : List (Nat × F),
      RecordsLive kernel source (Spread.of kernel source destination) index row ∧
      (gathered kernel source destination).entries? index = .some row ∧
      (build kernel source destination).entries? index = .some (normalize row) := by
  have built := build_represents (F := F) kernel source destination
  have raw := gathered_represents (F := F) kernel source destination
  have inside : ∀ row ∈ (List.range destination).map (rowOf kernel source destination),
      ∀ entry ∈ (row : List (Nat × F)), entry.1 < source := by
    intro row member entry within
    obtain ⟨index, -, rfl⟩ := List.mem_map.mp member
    exact rowOf_lt kernel some destination index entry within
  have shape := built.wellFormed inside
  rw [List.length_map, List.length_range] at shape
  obtain ⟨offsets, pixels⟩ := raw.same_places built (by
    rw [List.map_map, List.map_map]
    exact List.map_congr_left fun index _ => (normalize_pixels _).symm)
  refine ⟨shape, offsets, pixels, fun index within => ⟨_, ?_, ?_, entries?_build kernel within⟩⟩
  · exact rawEntries_recordsLive kernel some _ index
  · exact raw.entries?_range within

/-- Two samples from a single one: most images of the candidates lie outside the source. -/
theorem build_recordsLive_tiny :
    0 < 1 ∧ (build .bicubic 1 2 : Contributions Float32).WellFormed 1 2 ∧
    (gathered .bicubic 1 2 : Contributions Float32).offsets =
        (build .bicubic 1 2 : Contributions Float32).offsets ∧
    (gathered .bicubic 1 2 : Contributions Float32).pixels =
        (build .bicubic 1 2 : Contributions Float32).pixels ∧
    ∀ index < 2, ∃ row : List (Nat × Float32),
      RecordsLive .bicubic 1 (Spread.of .bicubic 1 2) index row ∧
      (gathered .bicubic 1 2).entries? index = .some row ∧
      (build .bicubic 1 2).entries? index = .some (normalize row) :=
  ⟨by decide, build_recordsLive .bicubic (by decide) 2⟩

end ImageDerivative.Contributions
