import ImageDerivative.Imaging.WorkerPool
import Mathlib.Tactic.Common

/-! A pass of a worker pool whose rows do not panic. Rows are disjoint, so the
buffer after the pass is the rows that the work makes, in row order, whatever the
number of partitions and however their rows interleave. -/
namespace ImageDerivative.Pass

variable {rows rowLength : Nat} (partitions : Nat) {work : RowWork rowLength}
  (pass : Pass rows rowLength) {made : Nat → Vector UInt8 rowLength}

section

variable (work)

theorem step_beyond {y : Nat} (beyond : ¬ y < rows) : pass.step partitions work y = pass :=
  dif_neg beyond

theorem step_stopped {y : Nat} (stopped : pass.stopped.contains (y % partitions) = true) :
    pass.step partitions work y = pass := by
  simp only [step, stopped, if_true, dite_eq_ite, ite_self]

theorem step_taken {y : Nat} (inside : y < rows)
    (going : pass.stopped.contains (y % partitions) = false) :
    pass.step partitions work y =
      match work y pass.buffer[y] with
      | .ok made => { pass with
          buffer := pass.buffer.set y made, calls := (y, pass.buffer[y]) :: pass.calls }
      | .error panic => { pass with
          stopped := y % partitions :: pass.stopped
          panic := pass.panic.or (some panic)
          calls := (y, pass.buffer[y]) :: pass.calls } := by
  have takes : ¬ pass.stopped.contains (y % partitions) = true := by
    rw [going]
    exact Bool.false_ne_true
  exact (dif_pos inside).trans (if_neg takes)

/-- What taking a row can do to a pass. -/
theorem step_cases (y : Nat) :
    pass.step partitions work y = pass ∨ ∃ inside : y < rows,
      (∃ made, work y pass.buffer[y] = .ok made ∧ pass.step partitions work y = { pass with
        buffer := pass.buffer.set y made, calls := (y, pass.buffer[y]) :: pass.calls }) ∨
      ∃ panic, work y pass.buffer[y] = .error panic ∧ pass.step partitions work y = { pass with
        stopped := y % partitions :: pass.stopped
        panic := pass.panic.or (some panic)
        calls := (y, pass.buffer[y]) :: pass.calls } := by
  by_cases inside : y < rows
  · cases taken : pass.stopped.contains (y % partitions) with
    | true => exact .inl (step_stopped partitions work pass taken)
    | false =>
      have stepped := step_taken partitions work pass inside taken
      refine .inr ⟨inside, ?_⟩
      cases worked : work y pass.buffer[y] with
      | ok made => exact .inl ⟨made, rfl, by rw [stepped, worked]⟩
      | error panic => exact .inr ⟨panic, rfl, by rw [stepped, worked]⟩
  · exact .inl (step_beyond partitions work pass inside)

theorem buffer_step {y z : Nat} (apart : y ≠ z) (there : z < rows) :
    (pass.step partitions work y).buffer[z] = pass.buffer[z] := by
  rcases step_cases partitions work pass y with
    same | ⟨inside, ⟨made, -, same⟩ | ⟨panic, -, same⟩⟩
  · rw [same]
  · simp only [same, Vector.getElem_set_ne _ _ apart]
  · simp only [same]

end

theorem step_ok {y : Nat} {row : Vector UInt8 rowLength} (inside : y < rows)
    (going : pass.stopped = []) (works : work y pass.buffer[y] = .ok row) :
    pass.step partitions work y = { pass with
      buffer := pass.buffer.set y row, calls := (y, pass.buffer[y]) :: pass.calls } := by
  have moving : pass.stopped.contains (y % partitions) = false := by rw [going, List.contains_nil]
  rw [step_taken partitions work pass inside moving, works]

/-- A row that is done is not taken again, so what the rows still to be taken hold
is what they held when the pass began. -/
theorem run_ok (order : List Nat) (once : order.Nodup) (inside : ∀ y ∈ order, y < rows)
    (going : pass.stopped = [])
    (works : ∀ y (h : y < rows), y ∈ order → work y pass.buffer[y] = .ok (made y)) :
    (pass.run partitions work order).panic = pass.panic ∧
      ∀ y (h : y < rows), (pass.run partitions work order).buffer[y] =
        if y ∈ order then made y else pass.buffer[y] := by
  induction order generalizing pass with
  | nil => exact ⟨rfl, fun y h => by simp [run]⟩
  | cons first rest ih =>
    obtain ⟨fresh, once⟩ := List.nodup_cons.mp once
    have bound := inside first List.mem_cons_self
    have stepped := step_ok partitions pass bound going (works first bound List.mem_cons_self)
    have apart : ∀ y ∈ rest, first ≠ y := fun y member same => fresh (same ▸ member)
    have later : ∀ y (h : y < rows), y ∈ rest →
        work y (pass.step partitions work first).buffer[y] = .ok (made y) := by
      intro y h member
      rw [buffer_step partitions work pass (apart y member) h]
      exact works y h (List.mem_cons_of_mem _ member)
    obtain ⟨quiet, filled⟩ := ih (pass.step partitions work first) once
      (fun y member => inside y (List.mem_cons_of_mem _ member)) (by rw [stepped]; exact going) later
    refine ⟨by rw [run, List.foldl_cons, ← run, quiet, stepped], fun y h => ?_⟩
    have done := filled y h
    rw [run, List.foldl_cons, ← run, done]
    by_cases member : y ∈ rest
    · simp [member]
    · by_cases same : first = y
      · subst same
        simp [member, stepped]
      · simp [member, stepped, Vector.getElem_set_ne _ _ same, Ne.symm same]

end ImageDerivative.Pass

namespace ImageDerivative.WorkerPool

variable {rows rowLength : Nat}

/-- Every pool leaves the same buffer: the rows that `work` makes, end to end. -/
theorem forEachRow_ok (pool : WorkerPool) (pass : Nat) {length : Nat}
    (buffer : Vector UInt8 length) (work : RowWork rowLength) (made : Nat → Vector UInt8 rowLength)
    (pos : 0 < rowLength) (whole : length = rows * rowLength)
    (works : ∀ y (h : y < rows),
      work y (rowsOf rowLength rows (buffer.cast whole))[y] = .ok (made y)) :
    pool.forEachRow pass buffer rowLength work =
      .ok ((Vector.ofFn fun y : Fin rows => made y).flatten.cast whole.symm) := by
  have nonzero : rowLength ≠ 0 := Nat.ne_of_gt pos
  subst whole
  by_cases empty : rows * rowLength = 0
  · rw [forEachRow, if_pos (Or.inr empty)]
    congr 1
    apply Vector.ext
    intro i h
    omega
  · rw [forEachRow, if_neg (by omega), dif_pos (Nat.mul_mod_left rows rowLength)]
    have quotient : rows * rowLength / rowLength = rows := Nat.mul_div_cancel rows pos
    simp only
    generalize_proofs apart together
    revert apart together
    rw [quotient]
    intro apart together
    obtain ⟨quiet, filled⟩ := Pass.run_ok pool.size
      { buffer := rowsOf rowLength rows (buffer.cast apart) } (pool.order pass rows)
      (pool.interleaves pass rows).nodup (fun y => (pool.interleaves pass rows).mem_iff.mp) rfl
      (fun y h _ => works y h)
    simp only [quiet]
    congr 3
    apply Vector.ext
    intro y h
    rw [filled y h, if_pos ((pool.interleaves pass rows).mem_iff.mpr h), Vector.getElem_ofFn]

/-- Work that succeeds on every row as it was is done by every pool, to the same end. -/
theorem exists_forEachRow {length : Nat} (buffer : Vector UInt8 length) {work : RowWork rowLength}
    (pos : 0 < rowLength) (whole : length = rows * rowLength)
    (works : ∀ y (h : y < rows), ∃ row,
      work y (rowsOf rowLength rows (buffer.cast whole))[y] = .ok row) :
    ∃ filled, ∀ (pool : WorkerPool) pass, pool.forEachRow pass buffer rowLength work = .ok filled := by
  let made := fun y => if h : y < rows then (works y h).choose else Vector.replicate rowLength 0
  have fits : ∀ y (h : y < rows),
      work y (rowsOf rowLength rows (buffer.cast whole))[y] = .ok (made y) := by
    intro y h
    simp only [made, dif_pos h]
    exact (works y h).choose_spec
  exact ⟨_, fun pool pass => pool.forEachRow_ok pass buffer work made pos whole fits⟩

end ImageDerivative.WorkerPool
