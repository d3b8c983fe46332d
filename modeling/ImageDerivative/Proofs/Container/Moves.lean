import ImageDerivative.Proofs.Container.Reads

/-! Readers that move the cursor and leave its data and its marks alone. -/
namespace ImageDerivative

/-- The result that leaves the state `s`. -/
def resultAt {ε σ α : Type} (outcome : Except ε α) (s : σ) : EStateM.Result ε σ α :=
  match outcome with
  | .ok a => .ok a s
  | .error e => .error e s

/-- `d` is `c` at another position. -/
structure Cursor.Moved (c d : Cursor) : Prop where
  same_data : d.data = c.data
  same_marks : d.marks = c.marks

namespace Cursor.Moved

variable {c d e : Cursor}

theorem refl (c : Cursor) : c.Moved c := ⟨rfl, rfl⟩

theorem trans (first : c.Moved d) (last : d.Moved e) : c.Moved e :=
  ⟨last.same_data.trans first.same_data, last.same_marks.trans first.same_marks⟩

theorem forward (c : Cursor) (n : Nat) : c.Moved (c.forward n) := ⟨rfl, rfl⟩

theorem toEnd (c : Cursor) : c.Moved c.toEnd := ⟨rfl, rfl⟩

/-- A reset leads back to the mark, wherever the cursor has gone since. -/
theorem reset_eq (moved : (c.withMarks (c.pos :: c.marks)).Moved d) :
    Read.reset d = .ok () c := by
  obtain ⟨data, marks⟩ := moved
  obtain ⟨cData, cSize, cPos, cRest, cMarks, rfl, rfl⟩ := c
  obtain ⟨dData, dSize, dPos, dRest, dMarks, rfl, rfl⟩ := d
  simp only [Cursor.withMarks] at data marks
  subst data marks
  rfl

end Cursor.Moved

/-- A reader that moves the cursor and does nothing else to it. -/
def Read.Moves {ε α : Type} (read : Read ε α) : Prop :=
  ∀ c, ∃ outcome d, c.Moved d ∧ read c = resultAt outcome d

namespace Read.Moves

variable {ε α β : Type}

theorem pure (a : α) : Moves (pure a : Read ε α) := fun c => ⟨.ok a, c, .refl c, rfl⟩

theorem throw (e : ε) : Moves (throw e : Read ε α) := fun c => ⟨.error e, c, .refl c, rfl⟩

theorem bind {read : Read ε α} {next : α → Read ε β} (first : Moves read)
    (last : ∀ a, Moves (next a)) : Moves (read >>= next) := by
  intro c
  obtain ⟨outcome, d, moved, result⟩ := first c
  simp only [Bind.bind, EStateM.bind, result]
  cases outcome with
  | error failure => exact ⟨.error failure, d, moved, rfl⟩
  | ok a =>
    obtain ⟨outcome, e, further, result⟩ := last a d
    exact ⟨outcome, e, moved.trans further, result⟩

theorem byte : Moves Read.byte := by
  intro c
  simp only [Read.byte, Bind.bind, EStateM.bind, get, getThe, MonadStateOf.get, EStateM.get]
  cases c.rest with
  | nil => exact ⟨.error .endOfField, _, .toEnd c, rfl⟩
  | cons b rest => exact ⟨.ok b, _, .forward c 1, rfl⟩

theorem field (width : Nat) : Moves (Read.field width) := by
  intro c
  simp only [Read.field, Bind.bind, EStateM.bind, get, getThe, MonadStateOf.get, EStateM.get]
  split
  · exact ⟨.ok _, _, .forward c width, rfl⟩
  · exact ⟨.error .endOfField, _, .toEnd c, rfl⟩

theorem littleEndian (width : Nat) : Moves (Read.littleEndian width) :=
  (field width).bind fun _ => pure _

theorem skip (n : Nat) : Moves (Read.skip n) := by
  intro c
  simp only [Read.skip, Bind.bind, EStateM.bind, get, getThe, MonadStateOf.get, EStateM.get]
  split
  · exact ⟨.error .skipTooLong, _, .refl c, rfl⟩
  · split
    · exact ⟨.error .seekOutOfRange, _, .refl c, rfl⟩
    · exact ⟨.ok (), _, .forward c n, rfl⟩

theorem repeatUpTo {stalled : Read ε β} {step : α → Read ε (α ⊕ β)} (gives : Moves stalled)
    (turn : ∀ a, Moves (step a)) (bound : Nat) (a : α) :
    Moves (repeatUpTo stalled step bound a) := by
  induction bound generalizing a with
  | zero => exact gives
  | succ bound ih =>
    refine (turn a).bind fun next => ?_
    cases next with
    | inl next => exact ih next
    | inr result => exact pure result

theorem walk {step : α → Read ε (α ⊕ β)} (turn : ∀ a, Moves (step a)) (stalled : ε) (a : α) :
    Moves (Read.walk step stalled a) :=
  fun c => repeatUpTo (throw stalled) turn (c.remaining + 1) a c

end Read.Moves

end ImageDerivative
