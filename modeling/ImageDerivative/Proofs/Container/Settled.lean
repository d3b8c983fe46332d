import ImageDerivative.Proofs.Container.Reads

/-! Readers whose answer is settled by the bytes they have passed. On other data with the
same bytes up to there they give the same answer, whatever follows; on data that ends
before, they say that it has ended. Two runs of a walk on data of different lengths have
different bounds. Since each turn uses up a byte, both can be given the greater one. -/
namespace ImageDerivative

namespace Cursor

/-- `e` is not before `c` in the same data. -/
structure Reaches (c e : Cursor) : Prop where
  same_data : e.data = c.data
  onward : c.pos ≤ e.pos

/-- `d` stands where `c` does, in data that has the same bytes before `stop` or ends
among them. -/
structure Resembles (stop : Nat) (c d : Cursor) : Prop where
  same_pos : d.pos = c.pos
  same_bytes : d.data.take stop <+: c.data

variable {c d e : Cursor} {stop middle n : Nat}

namespace Reaches

theorem refl (c : Cursor) : c.Reaches c := ⟨rfl, Nat.le_refl _⟩

theorem trans (first : c.Reaches d) (last : d.Reaches e) : c.Reaches e :=
  ⟨last.same_data.trans first.same_data, Nat.le_trans first.onward last.onward⟩

theorem forward (c : Cursor) (n : Nat) : c.Reaches (c.forward n) := ⟨rfl, Nat.le_add_right _ _⟩

theorem same_size (reached : c.Reaches e) : e.size = c.size := by
  rw [e.size_eq, reached.same_data, c.size_eq]

theorem pos_le (reached : c.Reaches e) (inside : e.pos ≤ e.size) : e.pos ≤ c.size :=
  reached.same_size ▸ inside

theorem remaining_le (reached : c.Reaches e) : e.remaining ≤ c.remaining := by
  rw [remaining, reached.same_size]
  exact Nat.sub_le_sub_left reached.onward c.size

end Reaches

namespace Resembles

/-- Data that ends somewhere in the bytes, or goes on with them. -/
theorem of_part (place : d.pos = c.pos) (part : d.data <+: c.data) : c.Resembles stop d :=
  ⟨place, (List.take_prefix _ _).trans part⟩

theorem weaken (same : c.Resembles stop d) (before : middle ≤ stop) : c.Resembles middle d :=
  ⟨same.same_pos, (List.take_prefix_take_left before).trans same.same_bytes⟩

theorem reach {m : Cursor} (same : c.Resembles stop d) (here : c.Reaches m) (there : d.Reaches e)
    (place : e.pos = m.pos) : m.Resembles stop e := by
  refine ⟨place, ?_⟩
  rw [here.same_data, there.same_data]
  exact same.same_bytes

theorem take_data (same : c.Resembles stop d) (before : n ≤ stop) (there : n ≤ d.size) :
    d.data.take n = c.data.take n := by
  have shared := List.prefix_iff_eq_take.mp (same.weaken before).same_bytes
  rwa [List.length_take_of_le (d.size_eq ▸ there)] at shared

theorem take_rest (same : c.Resembles stop d) (before : c.pos + n ≤ stop)
    (there : n ≤ d.remaining) : d.rest.take n = c.rest.take n := by
  cases n with
  | zero => rfl
  | succ n =>
    have inside : c.pos + (n + 1) ≤ d.size := by
      have place := same.same_pos
      unfold remaining at there
      omega
    rw [d.rest_eq, c.rest_eq, same.same_pos, List.take_drop, List.take_drop,
      same.take_data before inside]

end Resembles

end Cursor

namespace Read

variable {ε α β : Type}

/-- The data ends on the reader. -/
def RunsOut (cut : ε → Bool) (read : Read ε α) (c : Cursor) : Prop :=
  ∃ failure last, read c = .error failure last ∧ cut failure = true

/-- If the reader succeeds it does not go back, and the bytes that it passes settle the
answer: wherever they stand it is the same, and where the data ends among them it runs out. -/
def SettledAt (cut : ε → Bool) (read : Read ε α) (c : Cursor) : Prop :=
  ∀ ⦃a e⦄, read c = .ok a e → c.Reaches e ∧
    ∀ d, c.Resembles e.pos d →
      (∃ f, read d = .ok a f ∧ d.Reaches f ∧ f.pos = e.pos) ∨ d.size < e.pos ∧ RunsOut cut read d

def Settled (cut : ε → Bool) (read : Read ε α) : Prop := ∀ c, SettledAt cut read c

/-- A settled reader that succeeds only where it uses up some of what is ahead. -/
structure Advances (cut : ε → Bool) (read : Read ε α) : Prop where
  settled : Settled cut read
  consumes : ∀ {c a d}, read c = .ok a d → d.remaining < c.remaining

/-- The reader succeeds only at a place inside the data. -/
def EndsInside (read : Read ε α) : Prop := ∀ ⦃c a d⦄, read c = .ok a d → d.pos ≤ d.size

/-- The turn does not end a walk. -/
def GoesOn (turn : Read ε (α ⊕ β)) : Prop := ∀ ⦃c b d⦄, turn c ≠ .ok (.inr b) d

/-- From inside the data, the turn does not end a walk outside. -/
def StaysInside (turn : Read ε (α ⊕ β)) : Prop :=
  ∀ ⦃c b d⦄, c.pos ≤ c.size → turn c = .ok (.inr b) d → d.pos ≤ d.size

section

variable {cut : ε → Bool} {read : Read ε α} {next : α → Read ε β}

theorem SettledAt.bind {c : Cursor} (first : SettledAt cut read c)
    (last : ∀ a m, read c = .ok a m → SettledAt cut (next a) m) :
    SettledAt cut (read >>= next) c := by
  intro b e ran
  obtain ⟨a, m, begun, ended⟩ := state_bind_eq_ok.mp ran
  obtain ⟨reached, settles⟩ := first begun
  obtain ⟨further, finishes⟩ := last a m begun ended
  refine ⟨reached.trans further, fun d same => ?_⟩
  simp only [RunsOut, Bind.bind, EStateM.bind]
  rcases settles d (same.weaken further.onward) with
    ⟨n, again, there, place⟩ | ⟨short, failure, stop, failed, truncated⟩
  · rw [again]
    rcases finishes n (same.reach reached there place) with ⟨f, ended, onward, goal⟩ | out
    · exact .inl ⟨f, ended, there.trans onward, goal⟩
    · have size : n.size = d.size := there.same_size
      rw [size] at out
      exact .inr out
  · rw [failed]
    exact .inr ⟨Nat.lt_of_lt_of_le short further.onward, failure, stop, rfl, truncated⟩

namespace Settled

theorem pure (a : α) : Settled cut (pure a : Read ε α) := by
  intro c b e ran
  cases ran
  exact ⟨.refl c, fun d same => .inl ⟨d, rfl, .refl d, same.same_pos⟩⟩

theorem throw (failure : ε) : Settled cut (throw failure : Read ε α) := by
  intro c a e ran
  cases ran

theorem bind (first : Settled cut read) (last : ∀ a, Settled cut (next a)) :
    Settled cut (read >>= next) :=
  fun c => (first c).bind fun a m _ => last a m

theorem repeatUpTo {stalled : Read ε β} {step : α → Read ε (α ⊕ β)} (gives : Settled cut stalled)
    (turns : ∀ a, Settled cut (step a)) (bound : Nat) (a : α) :
    Settled cut (repeatUpTo stalled step bound a) := by
  induction bound generalizing a with
  | zero => exact gives
  | succ bound ih =>
    refine (turns a).bind fun next => ?_
    cases next with
    | inl next => exact ih next
    | inr result => exact pure result

end Settled

theorem Advances.bind (first : Advances cut read) (last : ∀ a, Settled cut (next a)) :
    Advances cut (read >>= next) where
  settled := first.settled.bind last
  consumes := by
    intro c b d ran
    obtain ⟨a, m, begun, ended⟩ := state_bind_eq_ok.mp ran
    exact Nat.lt_of_le_of_lt (last a m ended).1.remaining_le (first.consumes begun)

theorem EndsInside.bind (last : ∀ a, EndsInside (next a)) : EndsInside (read >>= next) := by
  intro c b d ran
  obtain ⟨a, m, -, ended⟩ := state_bind_eq_ok.mp ran
  exact last a ended

theorem EndsInside.map (inside : EndsInside read) (f : α → β) :
    EndsInside (do return f (← read)) := by
  intro c b d ran
  obtain ⟨a, m, begun, ended⟩ := state_bind_eq_ok.mp ran
  cases ended
  exact inside begun

/-- Wherever a settled reader succeeds inside the data it does so whatever the marks are. -/
theorem Settled.again (settled : Settled cut read) (inside : EndsInside read) {c d e : Cursor}
    {a : α} (ran : read c = .ok a e) (data : d.data = c.data) (place : d.pos = c.pos) :
    ∃ f, read d = .ok a f ∧ d.Reaches f ∧ f.pos = e.pos := by
  obtain ⟨reached, settles⟩ := settled c ran
  have ended := reached.pos_le (inside ran)
  rcases settles d (.of_part place (data ▸ List.prefix_rfl)) with again | ⟨short, -⟩
  · exact again
  · rw [c.size_eq, ← data, ← d.size_eq] at ended
    omega

end

section

variable {cut : ε → Bool} {step : α → Read ε (α ⊕ β)}

/-- A walk whose turns use something up does not come to its bound. -/
theorem repeatUpTo_enough {stalled : Read ε β} (turns : ∀ a, Advances cut (step a)) {m n : Nat}
    {c : Cursor} (first : c.remaining < m) (last : c.remaining < n) (a : α) :
    repeatUpTo stalled step m a c = repeatUpTo stalled step n a c := by
  induction m generalizing n c a with
  | zero => omega
  | succ m ih =>
    cases n with
    | zero => omega
    | succ n =>
      simp only [repeatUpTo, Bind.bind, EStateM.bind]
      cases turned : step a c with
      | error failure d => rfl
      | ok next d =>
        have fewer := (turns a).consumes turned
        cases next with
        | inl next => exact ih (by omega) (by omega) next
        | inr result => rfl

theorem Settled.walk (turns : ∀ a, Advances cut (step a)) (stalled : ε) (a : α) :
    Settled cut (walk step stalled a) := by
  intro c b e ran
  have settled := Settled.repeatUpTo (.throw stalled) fun a => (turns a).settled
  refine ⟨(settled (c.remaining + 1) a c ran).1, fun d same => ?_⟩
  let bound := max c.remaining d.remaining + 1
  have bounded (x : Cursor) (few : x.remaining < bound) :
      Read.walk step stalled a x =
        ImageDerivative.repeatUpTo (MonadExcept.throw stalled) step bound a x :=
    repeatUpTo_enough turns (Nat.lt_succ_self _) few a
  rw [bounded c (by omega)] at ran
  rw [RunsOut, bounded d (by omega)]
  exact (settled bound a c ran).2 d same

theorem GoesOn.inl (a : α) : GoesOn (pure (.inl a) : Read ε (α ⊕ β)) := by
  intro c b d ran
  cases ran

theorem GoesOn.throw (failure : ε) : GoesOn (throw failure : Read ε (α ⊕ β)) := by
  intro c b d ran
  cases ran

theorem GoesOn.bind {γ : Type} {read : Read ε γ} {next : γ → Read ε (α ⊕ β)}
    (last : ∀ a, GoesOn (next a)) : GoesOn (read >>= next) := by
  intro c b d ran
  obtain ⟨a, m, -, ended⟩ := state_bind_eq_ok.mp ran
  exact last a ended

theorem StaysInside.goesOn {turn : Read ε (α ⊕ β)} (goes : GoesOn turn) : StaysInside turn :=
  fun _ _ _ _ ran => (goes ran).elim

theorem StaysInside.pure (a : α ⊕ β) : StaysInside (pure a : Read ε (α ⊕ β)) := by
  intro c b d inside ran
  cases ran
  exact inside

/-- A walk ends inside the data if its turns begin with something that does, and stay there. -/
theorem EndsInside.walk {γ : Type} {first : Read ε γ} {next : α → γ → Read ε (α ⊕ β)}
    (begins : EndsInside first) (stays : ∀ a b, StaysInside (next a b)) (stalled : ε) (a : α) :
    EndsInside (walk (fun a => first >>= next a) stalled a) := by
  intro c b d ran
  have repeated (bound : Nat) (a : α) (c : Cursor)
      (ran : repeatUpTo (throw stalled) (fun a => first >>= next a) bound a c = .ok b d) :
      d.pos ≤ d.size := by
    induction bound generalizing a c with
    | zero => cases ran
    | succ bound ih =>
      obtain ⟨result, m, turned, rest⟩ := state_bind_eq_ok.mp ran
      cases result with
      | inl next => exact ih next m rest
      | inr result =>
        cases rest
        obtain ⟨found, n, begun, ended⟩ := state_bind_eq_ok.mp turned
        exact stays a found (begins begun) ended
  exact repeated _ a c ran

end

theorem field_apply (width : Nat) (c : Cursor) :
    field width c = if width ≤ c.remaining then .ok (c.rest.take width) (c.forward width)
      else .error .endOfField c.toEnd := by
  have whole : (c.rest.take width).length = width ↔ width ≤ c.remaining := by
    rw [List.length_take, c.length_rest]
    omega
  simp only [field, bind, EStateM.bind, get, getThe, MonadStateOf.get, EStateM.get, whole]
  split
  · rfl
  · rfl

theorem byte_eq : byte = (do return (← field 1).headD 0) := by
  funext c
  simp only [byte, bind, EStateM.bind, get, getThe, MonadStateOf.get, EStateM.get, field_apply,
    ← c.length_rest]
  cases c.rest with
  | nil => rfl
  | cons b rest =>
    rw [if_pos (by simp)]
    rfl

/-- A reader that takes a number of bytes, if so many are left. -/
theorem Settled.counted {read : Read ReadFailure Bytes} {count : Nat} {failure : ReadFailure}
    {left : Cursor → Cursor} (truncated : failure.isTruncation = true)
    (takes : ∀ c, read c = if count ≤ c.remaining then .ok (c.rest.take count) (c.forward count)
      else .error failure (left c)) : Settled ReadFailure.isTruncation read := by
  intro c bytes e ran
  rw [takes] at ran
  split at ran
  case isFalse => cases ran
  cases ran
  refine ⟨.forward c count, fun d same => ?_⟩
  have place := same.same_pos
  rw [RunsOut, takes]
  by_cases there : count ≤ d.remaining
  · rw [if_pos there, same.take_rest (Nat.le_refl _) there]
    exact .inl ⟨_, rfl, .forward d count, congrArg (· + count) place⟩
  · rw [if_neg there]
    refine .inr ⟨?_, failure, left d, rfl, truncated⟩
    simp only [Cursor.remaining, Cursor.forward] at there ⊢
    omega

namespace Settled

theorem field (width : Nat) : Settled ReadFailure.isTruncation (field width) :=
  counted rfl (field_apply width)

theorem run (count : Nat) : Settled ReadFailure.isTruncation (run count) :=
  counted rfl (run_eq count)

theorem byte : Settled ReadFailure.isTruncation byte := by
  rw [byte_eq]
  exact (field 1).bind fun _ => pure _

theorem littleEndian (width : Nat) : Settled ReadFailure.isTruncation (littleEndian width) :=
  (field width).bind fun _ => pure _

theorem bigEndian (width : Nat) : Settled ReadFailure.isTruncation (bigEndian width) :=
  (field width).bind fun _ => pure _

theorem skip (n : Nat) : Settled ReadFailure.isTruncation (skip n) := by
  intro c _ e ran
  obtain ⟨near, inside, rfl⟩ := skip_ok_iff.mp ran
  refine ⟨.forward c n, fun d same => .inl ⟨d.forward n, ?_, .forward d n, ?_⟩⟩
  · exact skip_ok_iff.mpr ⟨near, same.same_pos ▸ inside, rfl⟩
  · exact congrArg (· + n) same.same_pos

theorem lift {read : Read ReadFailure α} (settled : Settled ReadFailure.isTruncation read) :
    Settled MetadataError.isTruncation (liftM read : Read MetadataError α) := by
  intro c a e ran
  obtain ⟨reached, settles⟩ := settled c (lift_ok ran)
  refine ⟨reached, fun d same => ?_⟩
  rcases settles d same with ⟨f, again, rest⟩ | ⟨short, failure, last, failed, truncated⟩
  · exact .inl ⟨f, lift_ok_iff.mpr again, rest⟩
  · refine .inr ⟨short, .io failure, last, ?_, truncated⟩
    rw [Reads.lift_apply, failed]

end Settled

theorem field_inside {width : Nat} (some : width ≠ 0) {c d : Cursor} {bytes : Bytes}
    (ran : field width c = .ok bytes d) : d.remaining < c.remaining ∧ d.pos ≤ d.size := by
  rw [field_apply] at ran
  split at ran
  case isFalse => cases ran
  next inside =>
    cases ran
    simp only [Cursor.remaining, Cursor.forward] at inside ⊢
    omega

theorem Advances.field {width : Nat} (some : width ≠ 0) :
    Advances ReadFailure.isTruncation (field width) :=
  ⟨.field width, fun ran => (field_inside some ran).1⟩

theorem EndsInside.field {width : Nat} (some : width ≠ 0) : EndsInside (field width) :=
  fun _ _ _ ran => (field_inside some ran).2

theorem Advances.byte : Advances ReadFailure.isTruncation byte := by
  rw [byte_eq]
  exact (Advances.field (by decide)).bind fun _ => .pure _

theorem EndsInside.byte : EndsInside byte := by
  rw [byte_eq]
  exact (EndsInside.field (by decide)).map _

theorem Advances.lift {read : Read ReadFailure α}
    (advances : Advances ReadFailure.isTruncation read) :
    Advances MetadataError.isTruncation (liftM read : Read MetadataError α) :=
  ⟨advances.settled.lift, fun ran => advances.consumes (lift_ok ran)⟩

theorem EndsInside.lift {read : Read ReadFailure α} (inside : EndsInside read) :
    EndsInside (liftM read : Read MetadataError α) :=
  fun _ _ _ ran => inside (lift_ok ran)

/-- Where `read` succeeds on the data it stops inside; it fails for truncation on every
part of the data that ends before that place; and nothing that stands behind it matters. -/
def Delimits (read : Read MetadataError α) (data : Bytes) : Prop :=
  ∀ a stop, read.onBytes data = (.ok a, stop) →
    stop ≤ data.length ∧
      (∀ k < stop, ∃ failure last, read.onBytes (data.take k) = (.error failure, last) ∧
        failure.isTruncation = true) ∧
      ∀ tail, read.onBytes (data.take stop ++ tail) = (.ok a, stop)

theorem SettledAt.delimits {read : Read MetadataError α} {data : Bytes}
    (settled : SettledAt MetadataError.isTruncation read (.ofBytes data))
    (inside : EndsInside read) : Delimits read data := by
  intro a stop result
  obtain ⟨e, ran, rfl⟩ := onBytes_ok_iff.mp result
  obtain ⟨reached, settles⟩ := settled ran
  have here : e.pos ≤ data.length := reached.pos_le (inside ran)
  refine ⟨here, fun k short => ?_, fun tail => ?_⟩
  · have part : (Cursor.ofBytes data).Resembles e.pos (.ofBytes (data.take k)) :=
      .of_part rfl (List.take_prefix _ _)
    rcases settles _ part with ⟨f, again, there, goal⟩ | ⟨-, failure, last, failed, truncated⟩
    · have ended : f.pos ≤ (data.take k).length := there.pos_le (inside again)
      rw [List.length_take] at ended
      omega
    · refine ⟨failure, last.pos, ?_, truncated⟩
      simp only [onBytes, failed]
  · have whole : (data.take e.pos).length = e.pos := List.length_take_of_le here
    have start : (Cursor.ofBytes data).Resembles e.pos (.ofBytes (data.take e.pos ++ tail)) := by
      refine ⟨rfl, ?_⟩
      show (data.take e.pos ++ tail).take e.pos <+: data
      rw [List.take_left' whole]
      exact List.take_prefix _ _
    rcases settles _ start with ⟨f, again, -, goal⟩ | ⟨short, -⟩
    · exact onBytes_ok_iff.mpr ⟨f, again, goal⟩
    · have size : (Cursor.ofBytes (data.take e.pos ++ tail)).size = e.pos + tail.length := by
        show (data.take e.pos ++ tail).length = _
        rw [List.length_append, whole]
      omega

end Read

end ImageDerivative
