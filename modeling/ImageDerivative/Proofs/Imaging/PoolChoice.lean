import ImageDerivative.Imaging.Derive
import ImageDerivative.Proofs.Chains
import ImageDerivative.Proofs.Imaging.RowPass

/-! The pool has no say in what is made. A pass that succeeds has worked on every row of the
buffer as it was, so it succeeds with every other pool and leaves the same buffer; what is
put together from such passes has the same property. -/
namespace ImageDerivative

namespace Pass

variable {rows rowLength : Nat} (partitions : Nat) {work : RowWork rowLength}
  (pass : Pass rows rowLength)

theorem panic_step {panic : Panic} (y : Nat) (stuck : pass.panic = some panic) :
    (pass.step partitions work y).panic = some panic := by
  rcases step_cases partitions work pass y with
    same | ⟨inside, ⟨made, -, same⟩ | ⟨later, -, same⟩⟩
  · rw [same]
    exact stuck
  · rw [same]
    exact stuck
  · simp only [same, stuck, Option.some_or]

/-- The first panic is kept. -/
theorem panic_run {panic : Panic} (order : List Nat) (stuck : pass.panic = some panic) :
    (pass.run partitions work order).panic = some panic := by
  induction order generalizing pass with
  | nil => exact stuck
  | cons y rest ih => exact ih _ (panic_step partitions pass y stuck)

theorem step_error {y : Nat} {panic : Panic} (inside : y < rows) (going : pass.stopped = [])
    (calm : pass.panic = none) (fails : work y pass.buffer[y] = .error panic) :
    (pass.step partitions work y).panic = some panic := by
  have moving : pass.stopped.contains (y % partitions) = false := by rw [going, List.contains_nil]
  simp only [step_taken partitions work pass inside moving, fails, calm, Option.none_or]

/-- Where no worker has panicked, the work succeeds on every row as the pass found it. -/
theorem works_of_run (order : List Nat) (once : order.Nodup) (inside : ∀ y ∈ order, y < rows)
    (going : pass.stopped = []) (calm : pass.panic = none)
    (quiet : (pass.run partitions work order).panic = none) :
    ∀ y (h : y < rows), y ∈ order → ∃ row, work y pass.buffer[y] = .ok row := by
  induction order generalizing pass with
  | nil => exact fun y h member => absurd member List.not_mem_nil
  | cons first rest ih =>
    obtain ⟨fresh, once⟩ := List.nodup_cons.mp once
    have bound := inside first List.mem_cons_self
    cases worked : work first pass.buffer[first] with
    | error panic =>
      have stuck : (pass.run partitions work (first :: rest)).panic = some panic :=
        panic_run partitions _ rest (step_error partitions pass bound going calm worked)
      exact absurd (stuck.symm.trans quiet) (by simp)
    | ok made =>
      have stepped := step_ok partitions pass bound going worked
      have later := ih (pass.step partitions work first) once
        (fun y member => inside y (List.mem_cons_of_mem _ member))
        (by rw [stepped]; exact going) (by rw [stepped]; exact calm) quiet
      intro y h member
      cases List.mem_cons.mp member with
      | inl here =>
        subst here
        exact ⟨made, worked⟩
      | inr there =>
        have apart : first ≠ y := fun same => fresh (same ▸ there)
        obtain ⟨row, works⟩ := later y h there
        rw [buffer_step partitions work pass apart h] at works
        exact ⟨row, works⟩

end Pass

/-- What succeeds with one pool succeeds with each, and comes to the same. -/
def PoolFree {ε α : Type} (made : WorkerPool → Except ε α) : Prop :=
  ∀ ⦃pool a⦄, made pool = .ok a → ∀ other, made other = .ok a

namespace PoolFree

variable {ε α β : Type}

theorem const (made : Except ε α) : PoolFree fun _ => made := fun _ _ ran _ => ran

theorem bind {first : WorkerPool → Except ε α}
    {next : α → WorkerPool → Except ε β} (free : PoolFree first)
    (also : ∀ a, PoolFree (next a)) : PoolFree fun pool => first pool >>= fun a => next a pool := by
  intro pool b ran other
  cases made : first pool with
  | error error =>
    simp only [made, Bind.bind, Except.bind] at ran
    cases ran
  | ok a =>
    simp only [made, Bind.bind, Except.bind] at ran
    simp only [free made other, Bind.bind, Except.bind]
    exact also a ran other

theorem ite {condition : Prop} [Decidable condition]
    {yes no : WorkerPool → Except ε α} (free : PoolFree yes) (also : PoolFree no) :
    PoolFree fun pool => if condition then yes pool else no pool := by
  split
  next => exact free
  next => exact also

theorem mapError {δ : Type} {made : WorkerPool → Except ε α} (free : PoolFree made)
    (wrap : ε → δ) : PoolFree fun pool => (made pool).mapError wrap := by
  intro pool a ran other
  exact except_mapError_eq_ok.mpr (free (except_mapError_eq_ok.mp ran) other)

theorem forEachRow (pass : Nat) {length : Nat} (buffer : Vector UInt8 length) (rowLength : Nat)
    (work : RowWork rowLength) : PoolFree fun pool => pool.forEachRow pass buffer rowLength work := by
  intro pool made ran other
  by_cases empty : rowLength = 0 ∨ length = 0
  · simp only [WorkerPool.forEachRow, if_pos empty] at ran ⊢
    exact ran
  obtain ⟨some, _⟩ := not_or.mp empty
  by_cases whole : length % rowLength = 0
  · have length_eq : length / rowLength * rowLength = length :=
      Nat.div_mul_cancel (Nat.dvd_of_mod_eq_zero whole)
    have works : ∀ y (h : y < length / rowLength), ∃ row,
        work y (rowsOf rowLength _ (buffer.cast length_eq.symm))[y] = .ok row := by
      intro y h
      simp only [WorkerPool.forEachRow, if_neg empty, dif_pos whole] at ran
      split at ran
      next => cases ran
      next quiet =>
        have interleaves := pool.interleaves pass (length / rowLength)
        exact Pass.works_of_run pool.size _ _ interleaves.nodup
          (fun y => interleaves.mem_iff.mp) rfl rfl quiet y h (interleaves.mem_iff.mpr h)
    obtain ⟨filled, same⟩ := WorkerPool.exists_forEachRow buffer (Nat.pos_of_ne_zero some)
      length_eq.symm works
    simp only [same] at ran ⊢
    exact ran
  · simp only [WorkerPool.forEachRow, if_neg empty, dif_neg whole] at ran
    cases ran

end PoolFree

theorem UnsharpMask.poolFree_samplesOf {F : Type} [Single F] (mask : UnsharpMask F)
    (bitmap : Bitmap) (pass : Nat) : PoolFree fun pool => mask.samplesOf bitmap pool pass := by
  unfold UnsharpMask.samplesOf
  refine PoolFree.ite (.const _) (.bind (.forEachRow _ _ _ _) fun horizontal => ?_)
  exact PoolFree.bind (.forEachRow _ _ _ _) fun blurred => .forEachRow _ _ _ _

theorem Resampling.poolFree_run {F : Type} [Single F] (op : Resampling F) (source : Raster)
    (given : Option Raster) : PoolFree fun pool => op.run source given pool := by
  unfold Resampling.run
  refine PoolFree.ite (.const _) (PoolFree.ite (.const _) ?_)
  refine PoolFree.bind (.const _) fun out => .bind (.forEachRow _ _ _ _) fun work => ?_
  refine PoolFree.bind (.forEachRow _ _ _ _) fun samples => ?_
  exact PoolFree.bind (UnsharpMask.poolFree_samplesOf _ _ _) fun sharpened => .const _

theorem poolFree_scale (source : Raster) (target : Size) (kernel : Kernel) (linear : Bool) :
    PoolFree fun pool => scale source target kernel linear pool := by
  unfold scale
  refine PoolFree.ite (.const _) (PoolFree.ite (.const _) ?_)
  exact PoolFree.bind (.mapError (Resampling.poolFree_run _ _ _) _) fun resampled => .const _

theorem poolFree_sharpen (bitmap : Bitmap) (amount : Float32) :
    PoolFree fun pool => sharpen bitmap amount pool := by
  unfold sharpen
  refine PoolFree.ite (.const _) ?_
  exact PoolFree.bind (.mapError (UnsharpMask.poolFree_samplesOf _ _ _) _) fun samples => .const _

end ImageDerivative
