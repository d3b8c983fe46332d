import ImageDerivative.Imaging.Error

/-! A pool of workers that fills a buffer row by row. Row `y` goes to partition
`y % size`; a partition works through its rows in increasing order and stops at
the first one that panics, while the others go on. In what order the rows of
different partitions are taken is left to the pool's `order`, which may be any
`Interleaving` of the partitions. -/
namespace ImageDerivative

/-- `order` takes each of the rows once, and those of a partition by increasing index. -/
structure Interleaving (partitions rows : Nat) (order : List Nat) : Prop where
  perm : order.Perm (List.range rows)
  increasing : ∀ p < partitions,
    (order.filter fun y => y % partitions = p) =
      (List.range rows).filter fun y => y % partitions = p

namespace Interleaving

variable {partitions rows : Nat} {order : List Nat}

theorem nodup (taken : Interleaving partitions rows order) : order.Nodup :=
  taken.perm.nodup_iff.mpr List.nodup_range

theorem mem_iff (taken : Interleaving partitions rows order) {y : Nat} : y ∈ order ↔ y < rows :=
  taken.perm.mem_iff.trans List.mem_range

end Interleaving

structure WorkerPool where
  size : Nat
  size_pos : 0 < size
  /-- The order in which the rows of a pass are taken. -/
  order : (pass rows : Nat) → List Nat
  interleaves : ∀ pass rows, Interleaving size rows (order pass rows)

/-- What a worker makes of a row. -/
abbrev RowWork (rowLength : Nat) :=
  (y : Nat) → Vector UInt8 rowLength → Except Panic (Vector UInt8 rowLength)

structure Pass (rows rowLength : Nat) where
  buffer : Vector (Vector UInt8 rowLength) rows
  /-- The partitions that have panicked. -/
  stopped : List Nat := []
  /-- The first panic. -/
  panic : Option Panic := none
  /-- The rows handed to workers, the last one first. -/
  calls : List (Nat × Vector UInt8 rowLength) := []

namespace Pass

variable {rows rowLength : Nat}

/-- Works on row `y`, unless its partition has stopped. -/
def step (partitions : Nat) (work : RowWork rowLength) (pass : Pass rows rowLength) (y : Nat) :
    Pass rows rowLength :=
  if inside : y < rows then
    if pass.stopped.contains (y % partitions) then pass
    else
      let row := pass.buffer[y]
      let calls := (y, row) :: pass.calls
      match work y row with
      | .ok row => { pass with buffer := pass.buffer.set y row, calls }
      | .error panic => { pass with
          stopped := y % partitions :: pass.stopped
          panic := pass.panic.or (some panic)
          calls }
  else pass

def run (partitions : Nat) (work : RowWork rowLength) (order : List Nat)
    (pass : Pass rows rowLength) : Pass rows rowLength :=
  order.foldl (step partitions work) pass

end Pass

def rowsOf (rowLength rows : Nat) (buffer : Vector UInt8 (rows * rowLength)) :
    Vector (Vector UInt8 rowLength) rows :=
  Vector.ofFn fun y => Vector.ofFn fun i =>
    have inside : y.val * rowLength + i.val < rows * rowLength := by
      have := Nat.mul_le_mul_right rowLength (Nat.succ_le_of_lt y.isLt)
      rw [Nat.succ_mul] at this
      omega
    buffer[y.val * rowLength + i.val]

namespace WorkerPool

/-- Partition after partition. -/
def partitionOrder (partitions rows : Nat) : List Nat :=
  (List.range partitions).flatMap fun p => (List.range rows).filter fun y => y % partitions = p

theorem mem_partitionOrder {partitions : Nat} (pos : 0 < partitions) (rows y : Nat) :
    y ∈ partitionOrder partitions rows ↔ y < rows := by
  simp only [partitionOrder, List.mem_flatMap, List.mem_range, List.mem_filter, decide_eq_true_eq]
  constructor
  · rintro ⟨_, _, inside, _⟩
    exact inside
  · intro inside
    exact ⟨y % partitions, Nat.mod_lt y pos, inside, rfl⟩

theorem partitionOrder_nodup (partitions rows : Nat) : (partitionOrder partitions rows).Nodup := by
  rw [partitionOrder, List.Nodup, List.pairwise_flatMap]
  constructor
  · intro p _
    exact List.nodup_range.filter _
  · refine List.pairwise_lt_range.imp ?_
    intro p q apart y hy z hz same
    simp only [List.mem_filter, decide_eq_true_eq] at hy hz
    subst same
    omega

/-- The rows of one partition, picked out of those of all. -/
theorem filter_partitionOrder {partitions p : Nat} (rows : Nat) (inside : p < partitions) :
    ((partitionOrder partitions rows).filter fun y => y % partitions = p) =
      (List.range rows).filter fun y => y % partitions = p := by
  have parts : ∀ n, (((List.range n).flatMap fun q =>
      (List.range rows).filter fun y => y % partitions = q).filter fun y => y % partitions = p) =
        if p < n then (List.range rows).filter fun y => y % partitions = p else [] := by
    intro n
    induction n with
    | zero => rfl
    | succ n ih =>
      simp only [List.range_succ, List.flatMap_append, List.filter_append, ih, List.flatMap_cons,
        List.flatMap_nil, List.append_nil, List.filter_filter]
      by_cases last : p = n
      · subst last
        simp
      · have none : ((List.range rows).filter fun y =>
            decide (y % partitions = p) && decide (y % partitions = n)) = [] := by
          rw [List.filter_eq_nil_iff]
          intro y _
          simp only [Bool.and_eq_true, decide_eq_true_eq]
          omega
        have below : p < n + 1 ↔ p < n := by omega
        simp only [none, List.append_nil, below]
  rw [partitionOrder, parts, if_pos inside]

theorem partitionOrder_interleaving {partitions : Nat} (pos : 0 < partitions) (rows : Nat) :
    Interleaving partitions rows (partitionOrder partitions rows) where
  perm := by
    rw [List.perm_ext_iff_of_nodup (partitionOrder_nodup _ _) List.nodup_range]
    intro y
    rw [mem_partitionOrder pos, List.mem_range]
  increasing := fun _ inside => filter_partitionOrder rows inside

/-- A pool of `size` workers, of one at least. -/
def ofSize (size : Nat) : WorkerPool where
  size := max size 1
  size_pos := by omega
  order := fun _ rows => partitionOrder (max size 1) rows
  interleaves := fun _ rows => partitionOrder_interleaving (by omega) rows

/-- Replaces every row of `rowLength` samples by what `work` makes of it. A panic
in any worker fails the whole pass. -/
def forEachRow (pool : WorkerPool) (pass : Nat) {length : Nat} (buffer : Vector UInt8 length)
    (rowLength : Nat) (work : RowWork rowLength) : Except ResampleError (Vector UInt8 length) :=
  if rowLength = 0 ∨ length = 0 then .ok buffer
  else if whole : length % rowLength = 0 then
    have length_eq : length / rowLength * rowLength = length :=
      Nat.div_mul_cancel (Nat.dvd_of_mod_eq_zero whole)
    let rows := length / rowLength
    let start : Pass rows rowLength :=
      { buffer := rowsOf rowLength rows (buffer.cast length_eq.symm) }
    let done := start.run pool.size work (pool.order pass rows)
    match done.panic with
    | some panic => .error (.workerPanicked panic)
    | none => .ok (done.buffer.flatten.cast length_eq)
  else .error (.partialRow length rowLength)

end WorkerPool

end ImageDerivative
