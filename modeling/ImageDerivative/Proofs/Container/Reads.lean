import Mathlib
import ImageDerivative.Container.Error
import ImageDerivative.Proofs.Chains
import ImageDerivative.Proofs.Numerals

/-! Readers on input that begins with known bytes. `Reads` says that a reader uses up
exactly these bytes, whatever follows them, so that readers of adjacent parts compose
as their bytes do. A walk is a run of turns, each of which uses up a part of its own. -/
namespace ImageDerivative

namespace Cursor

theorem forward_forward (c : Cursor) (m n : Nat) :
    (c.forward m).forward n = c.forward (m + n) := by
  simp [forward, List.drop_drop, Nat.add_assoc]

theorem forward_zero (c : Cursor) : c.forward 0 = c := by
  simp [forward]

theorem pos_forward_sub {c : Cursor} {goal : Nat} (ahead : c.pos ≤ goal) :
    (c.forward (goal - c.pos)).pos = goal :=
  Nat.add_sub_cancel' ahead

theorem forward_sub_sub {c : Cursor} {middle goal : Nat} (first : c.pos ≤ middle)
    (last : middle ≤ goal) :
    (c.forward (middle - c.pos)).forward (goal - middle) = c.forward (goal - c.pos) := by
  rw [forward_forward]
  congr 1
  omega

theorem rest_forward {c : Cursor} {bytes tail : Bytes} (starts : c.rest = bytes ++ tail) :
    (c.forward bytes.length).rest = tail := by
  simp [forward, starts]

theorem remaining_eq {c : Cursor} {bytes tail : Bytes} (starts : c.rest = bytes ++ tail) :
    c.remaining = bytes.length + tail.length := by
  rw [← length_rest, starts, List.length_append]

end Cursor

/-- `n` turns of a step, each of which answers where to go on. -/
inductive Turns {ε σ α β : Type} (step : α → EStateM ε σ (α ⊕ β)) : Nat → α → σ → α → σ → Prop where
  | none : Turns step 0 a s a s
  | next : step a s = .ok (.inl b) t → Turns step n b t c u → Turns step (n + 1) a s c u

namespace Turns

variable {ε σ α β : Type} {step : α → EStateM ε σ (α ⊕ β)} {a b c : α} {s t u : σ} {m n : Nat}

theorem trans (first : Turns step m a s b t) (last : Turns step n b t c u) :
    Turns step (m + n) a s c u := by
  induction first with
  | none => simpa using last
  | @next _ _ _ _ k _ _ taken _ ih =>
    rw [Nat.succ_add]
    exact .next taken (ih last)

theorem one (taken : step a s = .ok (.inl b) t) : Turns step 1 a s b t := .next taken .none

/-- Behind its turns, a repetition goes on with those that are left of its bound. -/
theorem repeatUpTo_eq {stalled : EStateM ε σ β} (turns : Turns step n a s b t) (left : Nat) :
    repeatUpTo stalled step (n + left) a s = repeatUpTo stalled step left b t := by
  induction turns with
  | none => rw [Nat.zero_add]
  | next taken _ ih =>
    rw [Nat.succ_add]
    simp only [repeatUpTo, bind, EStateM.bind, taken]
    exact ih

/-- Turns within the bound go on until one answers the result. -/
theorem finish {stalled : EStateM ε σ β} {result : β} {bound : Nat} (turns : Turns step n a s b t)
    (stops : step b t = .ok (.inr result) u) (within : n < bound) :
    repeatUpTo stalled step bound a s = .ok result u := by
  obtain ⟨left, rfl⟩ := Nat.exists_eq_add_of_lt within
  rw [Nat.add_assoc, turns.repeatUpTo_eq]
  simp only [repeatUpTo, bind, EStateM.bind, stops]
  rfl

end Turns

/-- On input that begins with `bytes`, `read` answers `a` and stops behind them. -/
def Reads {ε α : Type} (read : Read ε α) (bytes : Bytes) (a : α) : Prop :=
  ∀ (c : Cursor) (tail : Bytes), c.rest = bytes ++ tail →
    c.pos + bytes.length ≤ Read.maxPosition → read c = .ok a (c.forward bytes.length)

namespace Reads

variable {ε α β : Type}

theorem pure (a : α) : Reads (pure a : Read ε α) [] a := by
  intro c _ _ _
  rw [List.length_nil, Cursor.forward_zero]
  rfl

theorem bind {read : Read ε α} {next : α → Read ε β} {xs ys : Bytes} {a : α} {b : β}
    (first : Reads read xs a) (last : Reads (next a) ys b) :
    Reads (read >>= next) (xs ++ ys) b := by
  intro c tail starts fits
  rw [List.append_assoc] at starts
  rw [List.length_append] at fits ⊢
  have moved := last (c.forward xs.length) tail (Cursor.rest_forward starts)
    (by simp only [Cursor.forward]; omega)
  rw [Cursor.forward_forward] at moved
  simp only [Bind.bind, EStateM.bind, first c (ys ++ tail) starts (by omega)]
  exact moved

/-- What is read behind the first part, whatever it makes of the input. -/
theorem bind_apply {read : Read ε α} {next : α → Read ε β} {xs tail : Bytes} {a : α} {c : Cursor}
    (first : Reads read xs a) (starts : c.rest = xs ++ tail)
    (fits : c.pos + xs.length ≤ Read.maxPosition) :
    (read >>= next) c = next a (c.forward xs.length) := by
  simp only [Bind.bind, EStateM.bind, first c tail starts fits]

/-- Nothing more is read behind the first part. -/
theorem bind_nil {read : Read ε α} {next : α → Read ε β} {bytes : Bytes} {a : α} {b : β}
    (first : Reads read bytes a) (last : Reads (next a) [] b) : Reads (read >>= next) bytes b := by
  rw [← List.append_nil bytes]
  exact first.bind last

/-- An answer computed from what was read. -/
theorem map {read : Read ε α} {bytes : Bytes} {a : α} (first : Reads read bytes a) (f : α → β) :
    Reads (do return f (← read)) bytes (f a) :=
  first.bind_nil (pure (f a))

theorem byte (b : UInt8) : Reads Read.byte [b] b := by
  intro c tail starts _
  rw [List.singleton_append] at starts
  simp only [Read.byte, Bind.bind, EStateM.bind, get, getThe, MonadStateOf.get, EStateM.get, starts]
  rfl

/-- A byte, and what is read behind it. -/
theorem byte_bind {b : UInt8} {rest : Bytes} {next : UInt8 → Read ReadFailure α} {a : α}
    (last : Reads (next b) rest a) : Reads (Read.byte >>= next) (b :: rest) a :=
  (byte b).bind last

theorem field {bytes : Bytes} {width : Nat} (length : bytes.length = width) :
    Reads (Read.field width) bytes bytes := by
  intro c tail starts _
  have taken : c.rest.take width = bytes := by rw [starts, ← length, List.take_left]
  simp only [Read.field, Bind.bind, EStateM.bind, get, getThe, MonadStateOf.get, EStateM.get, taken,
    length, if_true]
  rfl

theorem littleEndian {bytes : Bytes} {width : Nat} (length : bytes.length = width) :
    Reads (Read.littleEndian width) bytes (Bytes.ofLittleEndian bytes) :=
  (field length).map Bytes.ofLittleEndian

theorem bigEndian {bytes : Bytes} {width : Nat} (length : bytes.length = width) :
    Reads (Read.bigEndian width) bytes (Bytes.ofBigEndian bytes) :=
  (field length).map Bytes.ofBigEndian

theorem number {width n : Nat} (fits : n < 256 ^ width) :
    Reads (Read.bigEndian width) (Bytes.toBigEndian width n) n := by
  have read := bigEndian (Bytes.length_toBigEndian width n)
  rwa [Bytes.ofBigEndian_toBigEndian fits] at read

theorem run (bytes : Bytes) : Reads (Read.run bytes.length) bytes bytes := by
  intro c tail starts _
  have inside : bytes.length ≤ c.remaining := by
    rw [Cursor.remaining_eq starts]
    exact Nat.le_add_right _ _
  simp only [Read.run, Bind.bind, EStateM.bind, get, getThe, MonadStateOf.get, EStateM.get, inside,
    if_true, starts, List.take_left]
  rfl

theorem skip {bytes : Bytes} {n : Nat} (length : bytes.length = n) (near : n ≤ Read.maxSkip) :
    Reads (Read.skip n) bytes () := by
  intro c _ _ fits
  have inside : ¬ c.pos + n > Read.maxPosition := by omega
  simp only [Read.skip, Bind.bind, EStateM.bind, get, getThe, MonadStateOf.get, EStateM.get,
    Nat.not_lt.mpr near, gt_iff_lt, if_false, inside, length]
  rfl

theorem lift_apply (read : Read ReadFailure α) (c : Cursor) :
    (liftM read : Read MetadataError α) c = match read c with
      | .ok a c => .ok a c
      | .error failure c => .error (.io failure) c := rfl

/-- A reader that fails in its own way where the data does. -/
theorem lift {read : Read ReadFailure α} {bytes : Bytes} {a : α} (reads : Reads read bytes a) :
    Reads (liftM read : Read MetadataError α) bytes a := by
  intro c tail starts fits
  rw [lift_apply, reads c tail starts fits]

end Reads

/-- On input that begins with `bytes`, `step` takes turns that end behind them, not
more than there are bytes. -/
def Walks {ε α β : Type} (step : α → Read ε (α ⊕ β)) (bytes : Bytes) (a b : α) : Prop :=
  ∀ (c : Cursor) (tail : Bytes), c.rest = bytes ++ tail →
    c.pos + bytes.length ≤ Read.maxPosition →
    ∃ n ≤ bytes.length, Turns step n a c b (c.forward bytes.length)

namespace Walks

variable {ε α β : Type} {step : α → Read ε (α ⊕ β)} {a b c : α} {xs ys : Bytes}

theorem none (a : α) : Walks step [] a a := fun c _ _ _ =>
  ⟨0, Nat.le_refl _, by rw [List.length_nil, Cursor.forward_zero]; exact .none⟩

theorem one (turn : Reads (step a) xs (.inl b)) (some : xs ≠ []) : Walks step xs a b :=
  fun c tail starts fits =>
    ⟨1, List.length_pos_iff.mpr some, .one (turn c tail starts fits)⟩

theorem append (first : Walks step xs a b) (last : Walks step ys b c) :
    Walks step (xs ++ ys) a c := by
  intro cursor tail starts fits
  rw [List.append_assoc] at starts
  rw [List.length_append] at fits ⊢
  obtain ⟨m, few, begun⟩ := first cursor (ys ++ tail) starts (by omega)
  obtain ⟨n, rest, ended⟩ := last (cursor.forward xs.length) tail (Cursor.rest_forward starts)
    (by simp only [Cursor.forward]; omega)
  rw [Cursor.forward_forward] at ended
  exact ⟨m + n, by omega, begun.trans ended⟩

/-- A turn that takes one byte. -/
theorem cons {byte : UInt8} {rest : Bytes} (turn : Reads (step a) [byte] (.inl b))
    (last : Walks step rest b c) : Walks step (byte :: rest) a c :=
  (one turn (List.cons_ne_nil _ _)).append last

/-- A walk reads the bytes of its turns and those of the turn that ends it. -/
theorem finish {stalled : ε} {result : β} (turns : Walks step xs a b)
    (stops : Reads (step b) ys (.inr result)) : Reads (Read.walk step stalled a) (xs ++ ys) result := by
  intro cursor tail starts fits
  have remaining := Cursor.remaining_eq starts
  rw [List.append_assoc] at starts
  rw [List.length_append] at fits remaining ⊢
  obtain ⟨n, few, begun⟩ := turns cursor (ys ++ tail) starts (by omega)
  have ended := stops (cursor.forward xs.length) tail (Cursor.rest_forward starts)
    (by simp only [Cursor.forward]; omega)
  rw [Cursor.forward_forward] at ended
  exact begun.finish ended (by omega)

end Walks

namespace Read
variable {ε α β : Type} {c d : Cursor}

theorem lift_ok_iff {read : Read ReadFailure α} {a : α} :
    (liftM read : Read MetadataError α) c = .ok a d ↔ read c = .ok a d := by
  rw [Reads.lift_apply]
  cases read c with
  | ok _ _ => simp
  | error _ _ => simp

theorem lift_ok {read : Read ReadFailure α} {a : α}
    (ran : (liftM read : Read MetadataError α) c = .ok a d) : read c = .ok a d :=
  lift_ok_iff.mp ran

theorem field_ok {width : Nat} {bytes : Bytes} (ran : field width c = .ok bytes d) :
    d = c.forward width := by
  simp only [field, bind, EStateM.bind, get, getThe, MonadStateOf.get, EStateM.get] at ran
  split at ran
  · cases ran
    rfl
  · cases ran

theorem littleEndian_ok {width n : Nat} (ran : littleEndian width c = .ok n d) :
    d = c.forward width := by
  obtain ⟨bytes, m, taken, rest⟩ := state_bind_eq_ok.mp ran
  cases rest
  exact field_ok taken

theorem byte_ok {b : UInt8} (ran : byte c = .ok b d) : d = c.forward 1 := by
  simp only [byte, bind, EStateM.bind, get, getThe, MonadStateOf.get, EStateM.get] at ran
  cases ahead : c.rest with
  | nil =>
    rw [ahead] at ran
    cases ran
  | cons b rest =>
    rw [ahead] at ran
    cases ran
    rfl

theorem byte_found {b : UInt8} (ran : byte c = .ok b d) : c.data[c.pos]? = some b := by
  simp only [byte, bind, EStateM.bind, get, getThe, MonadStateOf.get, EStateM.get] at ran
  cases ahead : c.rest with
  | nil =>
    rw [ahead] at ran
    cases ran
  | cons first rest =>
    rw [ahead] at ran
    cases ran
    rw [c.rest_eq] at ahead
    rw [← Nat.add_zero c.pos, ← List.getElem?_drop, ahead]
    rfl

theorem onBytes_ok_iff {read : Read ε α} {data : Bytes} {a : α} {stop : Nat} :
    read.onBytes data = (.ok a, stop) ↔ ∃ d, read (.ofBytes data) = .ok a d ∧ d.pos = stop := by
  unfold onBytes
  cases read (.ofBytes data) with
  | ok _ _ => simp
  | error _ _ => simp

theorem field_eq {width : Nat} (some : width ≠ 0) (c : Cursor) :
    field width c = match c.data.slice? c.pos width with
      | .some bytes => .ok bytes (c.forward width)
      | none => .error .endOfField c.toEnd := by
  simp only [field, bind, EStateM.bind, get, getThe, MonadStateOf.get, EStateM.get, c.rest_eq,
    Bytes.slice?]
  by_cases whole : ((c.data.drop c.pos).take width).length = width
  · rw [if_pos whole, if_pos ⟨whole, .inl some⟩]
    rfl
  · rw [if_neg whole, if_neg (fun both => whole both.1)]
    rfl

theorem run_eq (count : Nat) (c : Cursor) :
    run count c = if count ≤ c.remaining then .ok (c.rest.take count) (c.forward count)
      else .error .endOfRun c.exhausted := by
  simp only [run, bind, EStateM.bind, get, getThe, MonadStateOf.get, EStateM.get]
  split
  · rfl
  · rfl

theorem skip_eq (n : Nat) (c : Cursor) :
    skip n c = if maxSkip < n then .error .skipTooLong c
      else if maxPosition < c.pos + n then .error .seekOutOfRange c
      else .ok () (c.forward n) := by
  simp only [skip, bind, EStateM.bind, get, getThe, MonadStateOf.get, EStateM.get, gt_iff_lt]
  split
  · rfl
  · split
    · rfl
    · rfl

theorem field_ok_iff {width : Nat} {bytes : Bytes} (some : width ≠ 0) :
    field width c = .ok bytes d ↔ c.data.slice? c.pos width = .some bytes ∧ d = c.forward width := by
  rw [field_eq some]
  cases c.data.slice? c.pos width with
  | none => simp
  | some _ => simp [eq_comm]

theorem bigEndian_ok_iff {width n : Nat} (some : width ≠ 0) :
    bigEndian width c = .ok n d ↔
      ∃ bytes, c.data.slice? c.pos width = .some bytes ∧ n = Bytes.ofBigEndian bytes ∧
        d = c.forward width := by
  rw [bigEndian, state_bind_eq_ok]
  constructor
  · rintro ⟨bytes, m, taken, rest⟩
    obtain ⟨found, rfl⟩ := (field_ok_iff some).mp taken
    cases rest
    exact ⟨bytes, found, rfl, rfl⟩
  · rintro ⟨bytes, found, rfl, rfl⟩
    exact ⟨bytes, _, (field_ok_iff some).mpr ⟨found, rfl⟩, rfl⟩

theorem run_ok_iff {count : Nat} {bytes : Bytes} :
    run count c = .ok bytes d ↔
      count ≤ c.remaining ∧ bytes = c.rest.take count ∧ d = c.forward count := by
  rw [run_eq]
  split
  · next inside => simp [inside, eq_comm]
  · next outside => simp [outside]

theorem skip_ok_iff {n : Nat} :
    skip n c = .ok () d ↔ n ≤ maxSkip ∧ c.pos + n ≤ maxPosition ∧ d = c.forward n := by
  rw [skip_eq]
  split
  · next far => simp [Nat.not_le.mpr far]
  · next near =>
    split
    · next outside => simp [Nat.not_le.mpr outside]
    · next inside => simp [Nat.not_lt.mp near, Nat.not_lt.mp inside, eq_comm]

theorem skip_ok {n : Nat} (ran : skip n c = .ok () d) : d = c.forward n := by
  obtain ⟨_, _, moved⟩ := skip_ok_iff.mp ran
  exact moved

end Read

/-- `bytes` stand between `c` and `d`. -/
structure Cursor.Spans (c : Cursor) (bytes : Bytes) (d : Cursor) : Prop where
  starts : c.rest = bytes ++ d.rest
  moved : d = c.forward bytes.length

namespace Cursor.Spans

variable {c d e : Cursor} {xs ys : Bytes}

theorem trans (first : c.Spans xs d) (last : d.Spans ys e) : c.Spans (xs ++ ys) e where
  starts := by rw [first.starts, last.starts, List.append_assoc]
  moved := by rw [last.moved, first.moved, Cursor.forward_forward, List.length_append]

/-- Where something is ahead, all that has been passed was there. -/
theorem forward {n : Nat} (ahead : (c.forward n).rest ≠ []) :
    c.Spans (c.rest.take n) (c.forward n) := by
  have inside : n ≤ c.rest.length := by
    refine Nat.le_of_not_lt fun past => ahead ?_
    exact List.drop_eq_nil_of_le (Nat.le_of_lt past)
  refine ⟨(List.take_append_drop n c.rest).symm, ?_⟩
  rw [List.length_take_of_le inside]

theorem ahead (spans : c.Spans xs d) (some : xs ≠ []) : c.rest ≠ [] := by
  rw [spans.starts]
  exact List.append_ne_nil_of_left_ne_nil some _

end Cursor.Spans

namespace Read

variable {c d : Cursor}

theorem byte_spans {b : UInt8} (ran : byte c = .ok b d) : c.Spans [b] d := by
  simp only [byte, bind, EStateM.bind, get, getThe, MonadStateOf.get, EStateM.get] at ran
  cases ahead : c.rest with
  | nil =>
    rw [ahead] at ran
    cases ran
  | cons first rest =>
    rw [ahead] at ran
    cases ran
    exact ⟨by simp [Cursor.forward, ahead], rfl⟩

theorem run_spans {count : Nat} {bytes : Bytes} (ran : run count c = .ok bytes d) :
    bytes.length = count ∧ c.Spans bytes d := by
  obtain ⟨inside, rfl, rfl⟩ := run_ok_iff.mp ran
  have whole : (c.rest.take count).length = count :=
    List.length_take_of_le (c.length_rest ▸ inside)
  refine ⟨whole, (List.take_append_drop count c.rest).symm, ?_⟩
  rw [whole]

theorem field_spans {width : Nat} {bytes : Bytes} (ran : field width c = .ok bytes d) :
    bytes.length = width ∧ c.Spans bytes d := by
  simp only [field, bind, EStateM.bind, get, getThe, MonadStateOf.get, EStateM.get] at ran
  split at ran
  · next whole =>
    cases ran
    refine ⟨whole, (List.take_append_drop width c.rest).symm, ?_⟩
    rw [whole]
  · cases ran

end Read

end ImageDerivative
