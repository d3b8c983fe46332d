import ImageDerivative.Imaging.Contributions

/-! The flat table of contributions read back row by row: the entries of a
destination index are the normalized entries that were put there, and each of them
names a pixel of the source. -/
namespace ImageDerivative.Contributions

variable {F : Type}

/-- The flat table that stands for a list of rows. -/
structure Represents (table : Contributions F) (rows : List (List (Nat × F))) : Prop where
  offsets : table.offsets.toList =
    (List.range (rows.length + 1)).map fun i => (rows.take i).flatten.length
  pixels : table.pixels.toList = rows.flatten.map Prod.fst
  weights : table.weights.toList = rows.flatten.map Prod.snd

theorem empty_represents : (empty : Contributions F).Represents [] := ⟨rfl, rfl, rfl⟩

theorem Represents.push {table : Contributions F} {rows : List (List (Nat × F))}
    (held : table.Represents rows) (entries : List (Nat × F)) :
    (table.push entries).Represents (rows ++ [entries]) := by
  have pixels : (table.push entries).pixels.toList = (rows ++ [entries]).flatten.map Prod.fst := by
    simp [Contributions.push, held.pixels]
  refine ⟨?_, pixels, by simp [Contributions.push, held.weights]⟩
  have size : (table.push entries).pixels.size = (rows ++ [entries]).flatten.length := by
    rw [← Array.length_toList, pixels, List.length_map]
  have last : (table.push entries).offsets.toList =
      table.offsets.toList ++ [(table.push entries).pixels.size] := by
    simp [Contributions.push]
  rw [last, size, held.offsets, List.length_append, List.length_singleton,
    List.range_succ (n := rows.length + 1), List.map_append]
  congr 1
  · apply List.map_congr_left
    intro i member
    have inside : i ≤ rows.length := Nat.le_of_lt_succ (List.mem_range.mp member)
    rw [List.take_append_of_le_length inside]
  · have whole : (rows ++ [entries]).take (rows.length + 1) = rows ++ [entries] :=
      List.take_of_length_le (by simp)
    rw [List.map_singleton, whole]

theorem foldl_push_represents {α : Type} (row : α → List (Nat × F)) (indices : List α)
    {table : Contributions F} {rows : List (List (Nat × F))} (held : table.Represents rows) :
    (indices.foldl (fun table index => table.push (row index)) table).Represents
      (rows ++ indices.map row) := by
  induction indices generalizing table rows with
  | nil => simpa using held
  | cons index rest ih =>
    have pushed := ih (held.push (row index))
    simpa only [List.foldl_cons, List.map_cons, List.append_assoc, List.singleton_append] using pushed

/-- A table filled index by index. -/
theorem represents_range (row : Nat → List (Nat × F)) (count : Nat) :
    ((List.range count).foldl (fun table index => table.push (row index)) empty).Represents
      ((List.range count).map row) :=
  foldl_push_represents row (List.range count) empty_represents

theorem Represents.offset {table : Contributions F} {rows : List (List (Nat × F))}
    (held : table.Represents rows) {i : Nat} (inside : i ≤ rows.length) :
    table.offsets[i]? = some (rows.take i).flatten.length := by
  rw [← Array.getElem?_toList, held.offsets, List.getElem?_map,
    List.getElem?_range (Nat.lt_succ_of_le inside), Option.map_some]

/-- What lies between the offsets of row `i` is row `i`. -/
theorem slice_flatten {α : Type} (rows : List (List α)) (i : Nat) (inside : i < rows.length) :
    (rows.flatten.drop (rows.take i).flatten.length).take
      ((rows.take (i + 1)).flatten.length - (rows.take i).flatten.length) = rows[i] := by
  have split : rows.flatten =
      (rows.take i).flatten ++ (rows[i] ++ (rows.drop (i + 1)).flatten) := by
    conv => lhs; rw [← List.take_append_drop i rows, List.drop_eq_getElem_cons inside]
    rw [List.flatten_append, List.flatten_cons]
  have next : (rows.take (i + 1)).flatten.length =
      (rows.take i).flatten.length + rows[i].length := by
    rw [List.take_succ_eq_append_getElem inside, List.flatten_append, List.length_append,
      List.flatten_singleton]
  rw [split, next, List.drop_left, Nat.add_sub_cancel_left, List.take_left]

theorem Represents.entries? {table : Contributions F} {rows : List (List (Nat × F))}
    (held : table.Represents rows) {i : Nat} (inside : i < rows.length) :
    table.entries? i = some rows[i] := by
  simp only [Contributions.entries?, held.offset (Nat.le_of_lt inside), held.offset inside,
    Option.bind_eq_bind, Option.bind_some, Option.pure_def, Array.toList_extract, held.pixels,
    held.weights, List.extract_eq_take_drop, ← List.map_drop, ← List.map_take,
    slice_flatten rows i inside]
  exact congrArg some (List.zip_of_prod rfl rfl).symm

theorem Represents.entries?_range {table : Contributions F} {row : Nat → List (Nat × F)}
    {count index : Nat} (held : table.Represents ((List.range count).map row))
    (inside : index < count) : table.entries? index = some (row index) := by
  have found := held.entries? (i := index) (by simpa using inside)
  simpa only [List.getElem_map, List.getElem_range] using found

variable [Single F]

/-- The entries of a destination index: the candidates of its kernel, their weights
divided by the sum of them. -/
def rowOf (kernel : Kernel) (source destination index : Nat) : List (Nat × F) :=
  normalize (rawEntries kernel source (Spread.of kernel source destination) index)

theorem build_represents (kernel : Kernel) (source destination : Nat) :
    (build kernel source destination : Contributions F).Represents
      ((List.range destination).map (rowOf kernel source destination)) :=
  represents_range (rowOf kernel source destination) destination

theorem entries?_build (kernel : Kernel) {source destination index : Nat}
    (inside : index < destination) :
    (build kernel source destination : Contributions F).entries? index =
      some (rowOf kernel source destination index) :=
  (build_represents kernel source destination).entries?_range inside

/-- A position that a reflection does not bring into the source is moved to its edge. -/
theorem entryOf_lt {source : Nat} (pos : 0 < source) (position : Int) (weight : F) :
    (entryOf source position weight).1 < source := by
  unfold entryOf
  simp only
  split
  · simp only
    omega
  · simp only
    omega

theorem normalize_pixels (entries : List (Nat × F)) :
    (normalize entries).map Prod.fst = entries.map Prod.fst := by
  unfold normalize
  simp only
  split
  · rfl
  · simp

theorem rowOf_lt (kernel : Kernel) {source : Nat} (pos : 0 < source) (destination index : Nat) :
    ∀ entry ∈ (rowOf kernel source destination index : List (Nat × F)), entry.1 < source := by
  intro entry member
  have named : entry.1 ∈ (rowOf kernel source destination index : List (Nat × F)).map Prod.fst :=
    List.mem_map_of_mem member
  rw [rowOf, normalize_pixels] at named
  obtain ⟨raw, rawMember, same⟩ := List.mem_map.mp named
  rw [rawEntries, List.mem_filterMap] at rawMember
  obtain ⟨position, _, made⟩ := rawMember
  simp only [Option.ite_none_left_eq_some, Option.some.injEq] at made
  rw [← same, ← made.2]
  exact entryOf_lt pos _ _

end ImageDerivative.Contributions
