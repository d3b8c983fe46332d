import ImageDerivative.Proofs.Imaging.PoolChoice

/-! A pass as a parallel map. Its record of calls tells which rows the workers were handed:
the work matters at those rows only. Where no row panics, each is handed over once, as it
was; a panic is always that of some row, and it always fails the pass. -/
namespace ImageDerivative

namespace Pass

variable {rows rowLength : Nat} (partitions : Nat) (work : RowWork rowLength)
  {other : RowWork rowLength} (pass : Pass rows rowLength)

theorem calls_step (y : Nat) : pass.calls <:+ (pass.step partitions work y).calls := by
  rcases step_cases partitions work pass y with
    same | ⟨inside, ⟨made, -, same⟩ | ⟨panic, -, same⟩⟩
  · simp only [same, List.suffix_refl]
  · simp only [same, List.suffix_cons]
  · simp only [same, List.suffix_cons]

theorem calls_run (order : List Nat) : pass.calls <:+ (pass.run partitions work order).calls := by
  induction order generalizing pass with
  | nil => exact List.suffix_refl _
  | cons y rest ih => exact (calls_step partitions work pass y).trans (ih _)

theorem mem_calls_step {y : Nat} (inside : y < rows)
    (going : pass.stopped.contains (y % partitions) = false) :
    (y, pass.buffer[y]) ∈ (pass.step partitions work y).calls := by
  rw [step_taken partitions work pass inside going]
  split
  · exact List.mem_cons_self
  · exact List.mem_cons_self

theorem step_congr {y : Nat}
    (agree : ∀ call ∈ (pass.step partitions work y).calls,
      other call.1 call.2 = work call.1 call.2) :
    pass.step partitions other y = pass.step partitions work y := by
  by_cases inside : y < rows
  · cases taken : pass.stopped.contains (y % partitions) with
    | true => rw [step_stopped partitions work pass taken, step_stopped partitions other pass taken]
    | false =>
      have same := agree _ (mem_calls_step partitions work pass inside taken)
      rw [step_taken partitions work pass inside taken,
        step_taken partitions other pass inside taken, same]
  · rw [step_beyond partitions work pass inside, step_beyond partitions other pass inside]

/-- Work that agrees on the calls of a run runs to the same end. -/
theorem run_congr (order : List Nat)
    (agree : ∀ call ∈ (pass.run partitions work order).calls,
      other call.1 call.2 = work call.1 call.2) :
    pass.run partitions other order = pass.run partitions work order := by
  induction order generalizing pass with
  | nil => rfl
  | cons y rest ih =>
    have first : pass.step partitions other y = pass.step partitions work y := by
      apply step_congr
      intro call member
      exact agree call ((calls_run partitions work _ rest).subset member)
    rw [run, List.foldl_cons, first]
    exact ih _ agree

/-- A run without a panic hands over the rows in the order given, each as it was. -/
theorem calls_run_ok {made given : Nat → Vector UInt8 rowLength} (order : List Nat)
    (once : order.Nodup) (inside : ∀ y ∈ order, y < rows) (going : pass.stopped = [])
    (held : ∀ y (h : y < rows), y ∈ order → pass.buffer[y] = given y)
    (works : ∀ y ∈ order, work y (given y) = .ok (made y)) :
    (pass.run partitions work order).calls =
      (order.map fun y => (y, given y)).reverse ++ pass.calls := by
  induction order generalizing pass with
  | nil => rfl
  | cons first rest ih =>
    obtain ⟨fresh, once⟩ := List.nodup_cons.mp once
    have bound := inside first List.mem_cons_self
    have here := held first bound List.mem_cons_self
    have worked : work first pass.buffer[first] = .ok (made first) := by
      rw [here]
      exact works first List.mem_cons_self
    have stepped := step_ok partitions pass bound going worked
    have later := ih (pass.step partitions work first) once
      (fun y member => inside y (List.mem_cons_of_mem _ member)) (by rw [stepped]; exact going)
      (fun y h member => by
        have apart : first ≠ y := fun same => fresh (same ▸ member)
        rw [buffer_step partitions work pass apart h]
        exact held y h (List.mem_cons_of_mem _ member))
      (fun y member => works y (List.mem_cons_of_mem _ member))
    rw [run, List.foldl_cons, ← run, later, stepped, here]
    simp only [List.map_cons, List.reverse_cons, List.append_assoc, List.singleton_append]

/-- Rows are as they were until they are taken, so a panic is that of a row as it was. -/
theorem panic_of_run {panic : Panic} (order : List Nat) (once : order.Nodup)
    (inside : ∀ y ∈ order, y < rows)
    (stuck : (pass.run partitions work order).panic = some panic) :
    pass.panic = some panic ∨
      ∃ y, ∃ h : y < rows, y ∈ order ∧ work y pass.buffer[y] = .error panic := by
  induction order generalizing pass with
  | nil => exact .inl stuck
  | cons first rest ih =>
    obtain ⟨fresh, once⟩ := List.nodup_cons.mp once
    have bound := inside first List.mem_cons_self
    rcases ih (pass.step partitions work first) once
        (fun y member => inside y (List.mem_cons_of_mem _ member)) stuck with
      early | ⟨y, h, member, fails⟩
    · rcases step_cases partitions work pass first with
        same | ⟨taken, ⟨made, -, same⟩ | ⟨raised, fails, same⟩⟩
      · rw [same] at early
        exact .inl early
      · rw [same] at early
        exact .inl early
      · rw [same, Option.or_eq_some_iff] at early
        rcases early with before | ⟨-, now⟩
        · exact .inl before
        · cases now
          exact .inr ⟨first, bound, List.mem_cons_self, fails⟩
    · have apart : first ≠ y := fun same => fresh (same ▸ member)
      rw [buffer_step partitions work pass apart h] at fails
      exact .inr ⟨y, h, List.mem_cons_of_mem _ member, fails⟩

end Pass

namespace WorkerPool

variable {length rows rowLength : Nat} (pool : WorkerPool) (pass : Nat)

def passOver (buffer : Vector UInt8 (rows * rowLength)) (work : RowWork rowLength) :
    Pass rows rowLength :=
  ({ buffer := rowsOf rowLength rows buffer } : Pass rows rowLength).run pool.size work
    (pool.order pass rows)

/-- The calls of the pass that `forEachRow` makes, in the order in which they are made. -/
def calls (buffer : Vector UInt8 length) (rowLength : Nat) (work : RowWork rowLength) :
    List (Nat × Vector UInt8 rowLength) :=
  if rowLength = 0 ∨ length = 0 then []
  else if whole : length % rowLength = 0 then
    (pool.passOver pass (buffer.cast
      (Nat.div_mul_cancel (Nat.dvd_of_mod_eq_zero whole)).symm) work).calls.reverse
  else []

section

variable (buffer : Vector UInt8 length) (work : RowWork rowLength) (pos : 0 < rowLength)
  (tall : 0 < rows) (whole : length = rows * rowLength)

include pos tall

omit buffer work in
include whole in
theorem rows_of_whole : length / rowLength = rows ∧ ¬ (rowLength = 0 ∨ length = 0) ∧
    length % rowLength = 0 := by
  have some : 0 < length := whole ▸ Nat.mul_pos tall pos
  refine ⟨?_, by omega, ?_⟩
  · rw [whole, Nat.mul_div_cancel _ pos]
  · rw [whole, Nat.mul_mod_left]

theorem forEachRow_eq : pool.forEachRow pass buffer rowLength work =
    match (pool.passOver pass (buffer.cast whole) work).panic with
    | some panic => .error (.workerPanicked panic)
    | none =>
      .ok ((pool.passOver pass (buffer.cast whole) work).buffer.flatten.cast whole.symm) := by
  obtain ⟨rfl, filled, divides⟩ := rows_of_whole pos tall whole
  rw [forEachRow, if_neg filled, dif_pos divides]
  rfl

theorem calls_eq : pool.calls pass buffer rowLength work =
    (pool.passOver pass (buffer.cast whole) work).calls.reverse := by
  obtain ⟨rfl, filled, divides⟩ := rows_of_whole pos tall whole
  rw [calls, if_neg filled, dif_pos divides]

end

end WorkerPool

def rowAt (rowLength : Nat) {length : Nat} (buffer : Vector UInt8 length) (y : Nat) :
    Vector UInt8 rowLength :=
  Vector.ofFn fun i => buffer[y * rowLength + i.val]?.getD 0

theorem rowsOf_eq {length rows rowLength y : Nat} (buffer : Vector UInt8 length)
    (whole : length = rows * rowLength) (inside : y < rows) :
    (rowsOf rowLength rows (buffer.cast whole))[y] = rowAt rowLength buffer y := by
  apply Vector.ext
  intro i left
  have within : y * rowLength + i < length := by
    rw [whole]
    have next := Nat.mul_le_mul_right rowLength (Nat.succ_le_of_lt inside)
    rw [Nat.succ_mul] at next
    omega
  simp [rowsOf, rowAt, within]

/-- `result` and `calls` are those of a map over the rows of a buffer. -/
structure MapsRows {length rowLength : Nat} (buffer : Vector UInt8 length)
    (work : RowWork rowLength) (result : Except ResampleError (Vector UInt8 length))
    (calls : List (Nat × Vector UInt8 rowLength)) : Prop where
  /-- Where there are no samples there is nothing to do. -/
  nothing : rowLength = 0 ∨ length = 0 → result = .ok buffer ∧ calls = []
  /-- A buffer that ends inside a row is refused as a whole. -/
  ragged : 0 < rowLength → length % rowLength ≠ 0 →
    result = .error (.partialRow length rowLength) ∧ calls = []
  /-- Each row is handed over once, as it was, and the results stand in the order of the rows. -/
  mapped : ∀ rows, 0 < rowLength → 0 < rows → ∀ whole : length = rows * rowLength,
    ∀ made : Nat → Vector UInt8 rowLength,
      (∀ y < rows, work y (rowAt rowLength buffer y) = .ok (made y)) →
      result = .ok ((Vector.ofFn fun y : Fin rows => made y).flatten.cast whole.symm) ∧
      calls.Perm ((List.range rows).map fun y => (y, rowAt rowLength buffer y))
  /-- A panic on any row fails the whole, with the panic of some row. -/
  panicked : ∀ rows, 0 < rowLength → length = rows * rowLength →
    (∃ y < rows, ∃ panic, work y (rowAt rowLength buffer y) = .error panic) →
    ∃ y < rows, ∃ panic, work y (rowAt rowLength buffer y) = .error panic ∧
      result = .error (.workerPanicked panic)

namespace WorkerPool

variable {length rowLength : Nat} (pool : WorkerPool) (pass : Nat) (buffer : Vector UInt8 length)
  (work : RowWork rowLength)

/-- What is not called does not matter. -/
theorem forEachRow_congr {other : RowWork rowLength}
    (agree : ∀ call ∈ pool.calls pass buffer rowLength work,
      other call.1 call.2 = work call.1 call.2) :
    pool.forEachRow pass buffer rowLength other = pool.forEachRow pass buffer rowLength work := by
  by_cases empty : rowLength = 0 ∨ length = 0
  · rw [forEachRow, forEachRow, if_pos empty, if_pos empty]
  by_cases divides : length % rowLength = 0
  · obtain ⟨rows, product⟩ := Nat.dvd_of_mod_eq_zero divides
    have whole : length = rows * rowLength := product.trans (Nat.mul_comm _ _)
    have pos : 0 < rowLength := by omega
    have tall : 0 < rows := by
      apply Nat.pos_of_ne_zero
      rintro rfl
      omega
    have same : pool.passOver pass (buffer.cast whole) other =
        pool.passOver pass (buffer.cast whole) work := by
      apply Pass.run_congr
      intro call member
      apply agree
      rw [calls_eq pool pass buffer work pos tall whole]
      exact List.mem_reverse.mpr member
    rw [forEachRow_eq pool pass buffer other pos tall whole,
      forEachRow_eq pool pass buffer work pos tall whole, same]
  · rw [forEachRow, forEachRow, if_neg empty, if_neg empty, dif_neg divides, dif_neg divides]

theorem forEachRow_panicked {rows : Nat} (pos : 0 < rowLength) (whole : length = rows * rowLength)
    (fails : ∃ y < rows, ∃ panic, work y (rowAt rowLength buffer y) = .error panic) :
    ∃ y < rows, ∃ panic, work y (rowAt rowLength buffer y) = .error panic ∧
      pool.forEachRow pass buffer rowLength work = .error (.workerPanicked panic) := by
  obtain ⟨y, inside, panic, raised⟩ := fails
  have tall : 0 < rows := Nat.zero_lt_of_lt inside
  have interleaves := pool.interleaves pass rows
  have taken : ∀ y ∈ pool.order pass rows, y < rows := fun y => interleaves.mem_iff.mp
  rw [forEachRow_eq pool pass buffer work pos tall whole]
  cases stuck : (pool.passOver pass (buffer.cast whole) work).panic with
  | none =>
    obtain ⟨row, worked⟩ := Pass.works_of_run pool.size _ _ interleaves.nodup taken rfl rfl stuck y
      inside (interleaves.mem_iff.mpr inside)
    simp only [rowsOf_eq buffer whole inside, raised] at worked
    cases worked
  | some first =>
    rcases Pass.panic_of_run pool.size work _ _ interleaves.nodup taken stuck with
      before | ⟨z, there, -, also⟩
    · cases before
    · simp only [rowsOf_eq buffer whole there] at also
      exact ⟨z, there, first, also, rfl⟩

/-- Every schedule of every pool maps the rows, and asks of the work only what it calls. -/
theorem forEachRow_mapsRows :
    MapsRows buffer work (pool.forEachRow pass buffer rowLength work)
      (pool.calls pass buffer rowLength work) ∧
    ∀ other : RowWork rowLength,
      (∀ call ∈ pool.calls pass buffer rowLength work, other call.1 call.2 = work call.1 call.2) →
      pool.forEachRow pass buffer rowLength other = pool.forEachRow pass buffer rowLength work := by
  refine ⟨⟨?_, ?_, ?_, ?_⟩, fun other agree => pool.forEachRow_congr pass buffer work agree⟩
  · intro empty
    exact ⟨by rw [forEachRow, if_pos empty], by rw [calls, if_pos empty]⟩
  · intro pos ragged
    have filled : ¬ (rowLength = 0 ∨ length = 0) := by
      rintro (thin | empty)
      · omega
      · exact ragged (by rw [empty, Nat.zero_mod])
    exact ⟨by rw [forEachRow, if_neg filled, dif_neg ragged],
      by rw [calls, if_neg filled, dif_neg ragged]⟩
  · intro rows pos tall whole made works
    have interleaves := pool.interleaves pass rows
    have taken : ∀ y ∈ pool.order pass rows, y < rows := fun y => interleaves.mem_iff.mp
    constructor
    · apply pool.forEachRow_ok pass buffer work made pos whole
      intro y inside
      rw [rowsOf_eq buffer whole inside]
      exact works y inside
    · have handed := Pass.calls_run_ok pool.size work
        ({ buffer := rowsOf rowLength rows (buffer.cast whole) } : Pass rows rowLength)
        (pool.order pass rows) interleaves.nodup taken rfl
        (fun y inside _ => rowsOf_eq buffer whole inside) (fun y member => works y (taken y member))
      rw [calls_eq pool pass buffer work pos tall whole, passOver, handed, List.append_nil,
        List.reverse_reverse]
      exact interleaves.perm.map _
  · intro rows pos whole fails
    exact pool.forEachRow_panicked pass buffer work pos whole fails

end WorkerPool

end ImageDerivative
