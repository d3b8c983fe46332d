import ImageDerivative.Proofs.Container.GifRetry
import ImageDerivative.Proofs.Container.Settled

/-! The reader of GIF streams is settled where no color table is declared. A walker is seen
as a reader that hands the record on, so that its turns are those of a walk. The second walk
begins where the first did, and fails for the same reason whatever the first has found. -/
namespace ImageDerivative

open Read (Settled SettledAt Advances EndsInside)

namespace Gif

theorem subBlockStep_advances : Advances ReadFailure.isTruncation (subBlockStep ()) := by
  refine Advances.byte.bind fun length => ?_
  split
  · exact .pure _
  · exact .bind (.skip _) fun _ => .pure _

theorem skipSubBlocks_settled : Settled ReadFailure.isTruncation skipSubBlocks :=
  .walk (fun _ => subBlockStep_advances) _ _

theorem zeroStep_advances : Advances ReadFailure.isTruncation (zeroStep ()) := by
  refine Advances.byte.bind fun b => ?_
  split
  · exact .pure _
  · exact .pure _

theorem skipToZero_settled : Settled ReadFailure.isTruncation skipToZero :=
  .walk (fun _ => zeroStep_advances) _ _

theorem rawStep_advances (kept : Bytes × Nat) :
    Advances ReadFailure.isTruncation (rawStep kept) := by
  refine Advances.byte.bind fun b => ?_
  split
  · exact .pure _
  · split
    · exact .pure _
    · exact skipToZero_settled.bind fun _ => .pure _

theorem rawXmp_settled : Settled ReadFailure.isTruncation rawXmp :=
  .walk rawStep_advances _ _

theorem readXmp_settled : Settled ReadFailure.isTruncation readXmp :=
  rawXmp_settled.bind fun _ => .pure _

theorem skipImage_settled : Settled ReadFailure.isTruncation skipImage := by
  refine .bind (.field 9) fun descriptor => ?_
  have rest : Settled ReadFailure.isTruncation (do Read.skip 1; skipSubBlocks) :=
    .bind (.skip 1) fun _ => skipSubBlocks_settled
  cases descriptor[8]?.bind colorTableLength? with
  | none => exact rest
  | some length => exact .bind (.skip length) fun _ => rest

/-- A walker as a reader that hands the record on. -/
def Walker.carried {α : Type} (walker : Walker α) (record : Record) :
    Read ReadFailure (α × Record) := fun c =>
  match walker ⟨c, record⟩ with
  | .ok a w => .ok (a, w.record) w.input
  | .error failure w => .error failure w.input

namespace Walker

variable {α β : Type}

theorem carried_lift (read : Read ReadFailure α) (record : Record) :
    carried (liftM read) record = (do return (← read, record)) := by
  funext c
  simp only [carried, lift_apply, bind, EStateM.bind]
  cases read c with
  | ok a d => rfl
  | error failure d => rfl

theorem carried_bind (walker : Walker α) (next : α → Walker β) (record : Record) :
    (walker >>= next).carried record =
      walker.carried record >>= fun done => (next done.1).carried done.2 := by
  funext c
  simp only [carried, bind, EStateM.bind]
  cases walker ⟨c, record⟩ with
  | ok a w => rfl
  | error failure w => rfl

/-- Whatever the record is, the walker is settled. -/
def Settled (walker : Walker α) : Prop :=
  ∀ record, Read.Settled ReadFailure.isTruncation (walker.carried record)

namespace Settled

theorem pure (a : α) : Settled (pure a) := fun record => .pure (a, record)

theorem lift {read : Read ReadFailure α} (settled : Read.Settled ReadFailure.isTruncation read) :
    Settled (liftM read) := by
  intro record
  rw [carried_lift]
  exact settled.bind fun _ => .pure _

theorem found (update : Record → Record) : Settled (Walker.found update) :=
  fun record => .pure ((), update record)

theorem bind {walker : Walker α} {next : α → Walker β} (first : Settled walker)
    (last : ∀ a, Settled (next a)) : Settled (walker >>= next) := by
  intro record
  rw [carried_bind]
  exact (first record).bind fun done => last done.1 done.2

end Settled

end Walker

theorem readApplication_settled : readApplication.Settled := by
  refine .bind (.lift (.skip 1)) fun _ => .bind (.lift (.field 8)) fun _ =>
    .bind (.lift (.field 3)) fun _ => ?_
  split
  · exact .bind (.lift (.skip 2)) fun _ => .bind (.lift (.littleEndian 2)) fun count => .found _
  · split
    · exact .bind (.lift readXmp_settled) fun xmp => .found _
    · exact .lift skipSubBlocks_settled

theorem readGraphicControl_settled : readGraphicControl.Settled :=
  .bind (.lift (.skip 2)) fun _ => .bind (.lift (.littleEndian 2)) fun _ =>
    .bind (.found _) fun _ => .lift (.skip 1)

theorem readExtension_settled : readExtension.Settled := by
  refine .bind (.lift .byte) fun label => ?_
  split
  · exact .bind (.lift (.skip 13)) fun _ => .lift skipSubBlocks_settled
  · exact readApplication_settled
  · exact readGraphicControl_settled
  · exact .lift skipSubBlocks_settled

/-- What a turn does behind the byte that introduces a block. -/
def walkTagged (tag : UInt8) : Walker (Unit ⊕ Unit) := do
  match tag with
  | 0x2C =>
    skipImage
    return .inl ()
  | 0x21 =>
    readExtension
    return .inl ()
  | 0x3B => return .inr ()
  | _ => return .inl ()

theorem walkTagged_settled (tag : UInt8) : (walkTagged tag).Settled := by
  unfold walkTagged
  split
  · exact .bind (.lift skipImage_settled) fun _ => .pure _
  · exact .bind readExtension_settled fun _ => .pure _
  · exact .pure _
  · exact .pure _

theorem walkBlock_carried (record : Record) :
    walkBlock.carried record = (do (walkTagged (← Read.byte)).carried record) := by
  have parts : walkBlock = (do walkTagged (← liftM Read.byte) : Walker (Unit ⊕ Unit)) := rfl
  rw [parts, Walker.carried_bind, Walker.carried_lift, bind_assoc]
  rfl

def handOn : (Unit ⊕ Unit) × Record → Record ⊕ (Unit × Record)
  | (.inl (), record) => .inl record
  | (.inr (), record) => .inr ((), record)

/-- A turn of the walk with the record in hand. -/
def carriedTurn (record : Record) : Read ReadFailure (Record ⊕ (Unit × Record)) := do
  let tag ← Read.byte
  return handOn (← (walkTagged tag).carried record)

theorem carriedTurn_eq (record : Record) :
    carriedTurn record = (do return handOn (← walkBlock.carried record)) := by
  rw [walkBlock_carried, bind_assoc]
  rfl

theorem walkBlocks_carried (record : Record) :
    walkBlocks.carried record = Read.walk carriedTurn .stalled record := by
  funext c
  -- Turn by turn, the record in the walker's state is the one in hand.
  have repeated (bound : Nat) (record : Record) (c : Cursor) :
      (repeatUpTo (throw .stalled) (fun () => walkBlock) bound () : Walker Unit).carried record c =
        repeatUpTo (throw .stalled) carriedTurn bound record c := by
    induction bound generalizing record c with
    | zero => rfl
    | succ bound ih =>
      rw [repeatUpTo, Walker.carried_bind, repeatUpTo, carriedTurn_eq, bind_assoc]
      simp only [bind, EStateM.bind]
      cases walkBlock.carried record c with
      | error failure d => rfl
      | ok done d =>
        obtain ⟨⟨⟩ | ⟨⟩, record⟩ := done
        · exact ih record d
        · rfl
  exact repeated _ record c

theorem carriedTurn_advances (record : Record) :
    Advances ReadFailure.isTruncation (carriedTurn record) :=
  Advances.byte.bind fun tag => (walkTagged_settled tag record).bind fun _ => .pure _

theorem walkBlocks_settled : walkBlocks.Settled := by
  intro record
  rw [walkBlocks_carried]
  exact .walk carriedTurn_advances _ _

/-- The last turn takes the trailer, and nothing more. -/
theorem walkBlocks_inside (record : Record) : EndsInside (walkBlocks.carried record) := by
  rw [walkBlocks_carried]
  unfold carriedTurn
  refine .walk .byte (fun record tag => ?_) _ _
  unfold walkTagged
  have quiet {walker : Walker Unit} : Read.GoesOn (do
      return handOn (← Walker.carried (do walker; return .inl ()) record)) := by
    rw [Walker.carried_bind, bind_assoc]
    exact .bind fun _ => .inl _
  split
  · exact .goesOn quiet
  · exact .goesOn quiet
  · exact .pure (Sum.inr ((), record))
  · exact .pure (Sum.inl record)

/-- The outcome of a walk is the same whatever the record is. -/
theorem walkBlocks_outcome (c : Cursor) :
    ∃ (outcome : Except ReadFailure Unit) (found : Findings) (last : Cursor), ∀ record,
      walkBlocks.carried record c =
        resultAt (outcome.map fun _ => ((), found.apply record)) last := by
  obtain ⟨outcome, found, last, -, result⟩ := walkBlocks_finds c
  refine ⟨outcome, found, last, fun record => ?_⟩
  rw [Walker.carried, result]
  cases outcome with
  | ok _ => rfl
  | error failure => rfl

theorem walkBlocks_ok {record : Record} {done : Unit × Record} {c e : Cursor}
    (ran : walkBlocks.carried record c = .ok done e) (other : Record) :
    ∃ done, walkBlocks.carried other c = .ok done e := by
  obtain ⟨outcome, found, last, result⟩ := walkBlocks_outcome c
  obtain ⟨kept, rfl⟩ := resultAt_ok ((result record).symm.trans ran)
  cases outcome with
  | ok _ => exact ⟨_, result other⟩
  | error failure => cases kept

theorem walkBlocks_error {record : Record} {failure : ReadFailure} {c e : Cursor}
    (ran : walkBlocks.carried record c = .error failure e) (other : Record) :
    walkBlocks.carried other c = .error failure e := by
  obtain ⟨outcome, found, last, result⟩ := walkBlocks_outcome c
  rw [result record] at ran
  cases outcome with
  | ok _ => cases ran
  | error failure =>
    cases ran
    exact result other

/-- Without a color table the second walk begins where the first did, with the mark gone. -/
theorem readBlocks_tableless {header : Record} (none : header.colorTableLength = none) (c : Cursor) :
    ∃ record, readBlocks.carried header c =
      match walkBlocks.carried header (c.withMarks (c.pos :: c.marks)) with
      | .ok done d => .ok done d
      | .error failure d =>
        if failure.isTruncation then walkBlocks.carried record c else .error failure d := by
  have parts : readBlocks ⟨c, header⟩ = walkOrRetry ⟨c.withMarks (c.pos :: c.marks), header⟩ := by
    rw [readBlocks_marked, none]
  simp only [Walker.carried]
  rw [parts, walkOrRetry_eq]
  cases first : walkBlocks ⟨c.withMarks (c.pos :: c.marks), header⟩ with
  | ok _ done => exact ⟨header, rfl⟩
  | error failure abandoned =>
    refine ⟨abandoned.record, ?_⟩
    by_cases truncated : failure.isTruncation = true
    · simp only [truncated, if_true]
      rw [Walker.lift_bind, (walkBlocks_abandoned first).1.reset_eq]
    · simp only [truncated]
      rfl

theorem readBlocks_settled {header : Record} (none : header.colorTableLength = none) :
    Settled ReadFailure.isTruncation (readBlocks.carried header) := by
  intro c done e ran
  let marked (d : Cursor) := d.withMarks (d.pos :: d.marks)
  have first : walkBlocks.carried header (marked c) = .ok done e := by
    obtain ⟨record, tried⟩ := readBlocks_tableless none c
    rw [tried] at ran
    cases walked : walkBlocks.carried header (marked c) with
    | ok _ _ =>
      rw [walked] at ran
      exact ran
    | error failure d =>
      -- The second walk would have run into what stopped the first.
      simp only [marked] at walked
      simp only [walked] at ran
      split at ran
      · obtain ⟨_, kept⟩ := walkBlocks_ok ran header
        obtain ⟨f, same, -⟩ := (walkBlocks_settled header).again (walkBlocks_inside header) kept
          (rfl : (marked c).data = c.data) rfl
        rw [walked] at same
        cases same
      · cases ran
  obtain ⟨reached, settles⟩ := walkBlocks_settled header _ first
  refine ⟨⟨reached.same_data, reached.onward⟩, fun d same => ?_⟩
  obtain ⟨record, tried⟩ := readBlocks_tableless none d
  rcases settles (marked d) ⟨same.same_pos, same.same_bytes⟩ with
    ⟨f, walked, there, goal⟩ | ⟨short, failure, stop, failed, truncated⟩
  · refine .inl ⟨f, ?_, ⟨there.same_data, there.onward⟩, goal⟩
    rw [tried, walked]
  · refine .inr ⟨short, ?_⟩
    rcases settles d ⟨same.same_pos, same.same_bytes⟩ with
      ⟨f, walked, there, goal⟩ | ⟨-, failure, stop, again, also⟩
    · have inside : f.pos ≤ d.size := there.pos_le (walkBlocks_inside header walked)
      have size : (marked d).size = d.size := rfl
      omega
    · refine ⟨failure, stop, ?_, also⟩
      rw [tried, failed]
      simp only [truncated, if_true]
      exact walkBlocks_error again record

theorem walkOrRetry_inside (record : Record) : EndsInside (walkOrRetry.carried record) := by
  intro c done e ran
  have walked {other : Record} {d : Cursor} {w : Walk} (ran : walkBlocks ⟨d, other⟩ = .ok () w) :
      w.input.pos ≤ w.input.size := by
    have carried : walkBlocks.carried other d = .ok ((), w.record) w.input := by
      rw [Walker.carried, ran]
    exact walkBlocks_inside other carried
  cases tried : walkOrRetry ⟨c, record⟩ with
  | error failure w =>
    rw [Walker.carried, tried] at ran
    cases ran
  | ok _ w =>
    rw [Walker.carried, tried] at ran
    cases ran
    rw [walkOrRetry_eq] at tried
    split at tried
    · next first =>
      cases tried
      exact walked first
    · split at tried
      · obtain ⟨_, back, -, again⟩ := state_bind_eq_ok.mp tried
        exact walked again
      · cases tried

theorem readBlocks_inside (record : Record) : EndsInside (readBlocks.carried record) := by
  intro c done e ran
  rw [Walker.carried, readBlocks_marked] at ran
  cases given : record.colorTableLength with
  | none =>
    rw [given] at ran
    exact walkOrRetry_inside record ran
  | some length =>
    have rest : EndsInside (Walker.carried (do
        if length < (← Read.length (ε := ReadFailure)) then
          Read.skip length
        walkOrRetry) record) := by
      rw [Walker.carried_bind]
      refine .bind fun done => ?_
      simp only
      split
      · rw [Walker.carried_bind]
        exact .bind fun done => walkOrRetry_inside done.2
      · exact walkOrRetry_inside done.2
    rw [given] at ran
    exact rest ran

theorem readHeader_settled : Settled MetadataError.isTruncation readHeader := by
  refine .bind (.lift (.field 3)) fun signature => ?_
  split
  · refine .bind (.lift (.field 3)) fun version => ?_
    split
    · exact .bind (.lift (.littleEndian 2)) fun _ => .bind (.lift (.littleEndian 2)) fun _ =>
        .bind (.lift .byte) fun _ => .bind (.lift (.skip 2)) fun _ => .pure _
    · exact .throw _
  · exact .throw _

theorem read_eq : read = (do
    let header ← readHeader
    return (← liftM (readBlocks.carried header)).2) := by
  funext c
  simp only [bind, EStateM.bind, read]
  cases readHeader c with
  | error failure d => rfl
  | ok header d =>
    simp only [Reads.lift_apply, Walker.carried]
    cases readBlocks ⟨d, header⟩ with
    | ok _ w => rfl
    | error failure w => rfl

theorem readHeader_flags {data : Bytes} {header : Record} {start : Cursor}
    (parsed : readHeader (.ofBytes data) = .ok header start) :
    header.colorTableLength = colorTableLength? (data.getD 10 0) := by
  obtain ⟨width, height, flags, found, -, rfl⟩ := readHeader_inv parsed
  have tenth : data[10]? = some flags := found
  rw [List.getD_eq_getElem?_getD, tenth]
  rfl

theorem read_settledAt {data : Bytes} (clear : data.getD 10 0 &&& 1 = 0) :
    SettledAt MetadataError.isTruncation read (.ofBytes data) := by
  rw [read_eq]
  refine (readHeader_settled _).bind fun header start parsed => ?_
  have none : header.colorTableLength = none := by
    rw [readHeader_flags parsed, colorTableLength?, if_pos clear]
  exact ((readBlocks_settled none).lift.bind fun _ => .pure _) start

theorem read_inside : EndsInside read := by
  rw [read_eq]
  exact .bind fun header => (readBlocks_inside header).lift.map _

end Gif

end ImageDerivative
