import ImageDerivative.Proofs.Container.GifWalk
import ImageDerivative.Proofs.Container.Moves

/-! The second walk over a GIF stream. Where a walk stops and what it finds depend on the
input alone, but it adds what it finds to the record that the abandoned walk has left. -/
namespace ImageDerivative

namespace Gif

open Read (Moves)

theorem skipSubBlocks_moves : Moves skipSubBlocks := by
  refine .walk (fun _ => .bind .byte fun length => ?_) _ _
  split
  · exact .pure _
  · exact .bind (.skip _) fun _ => .pure _

theorem skipToZero_moves : Moves skipToZero := by
  refine .walk (fun _ => .bind .byte fun b => ?_) _ _
  split <;> exact .pure _

theorem rawXmp_moves : Moves rawXmp := by
  refine .walk (fun _ => .bind .byte fun b => ?_) _ _
  split
  · exact .pure _
  · split
    · exact .pure _
    · exact .bind skipToZero_moves fun _ => .pure _

theorem readXmp_moves : Moves readXmp := .bind rawXmp_moves fun _ => .pure _

theorem skipImage_moves : Moves skipImage := by
  refine .bind (.field 9) fun descriptor => ?_
  have rest : Moves (do Read.skip 1; skipSubBlocks) := .bind (.skip 1) fun _ => skipSubBlocks_moves
  cases descriptor[8]?.bind colorTableLength? with
  | none => exact rest
  | some length => exact .bind (.skip length) fun _ => rest

/-- The walker's outcome, the place where it stops and what it finds depend on the input
alone; what it finds replaces what the record had. -/
def Finds {α : Type} (walker : Walker α) : Prop :=
  ∀ input, ∃ outcome found last, input.Moved last ∧
    ∀ record, walker ⟨input, record⟩ = resultAt outcome ⟨last, Findings.apply found record⟩

namespace Finds

variable {α β : Type}

theorem pure (a : α) : Finds (pure a) := fun input =>
  ⟨.ok a, .none, input, .refl input, fun _ => rfl⟩

theorem throw (failure : ReadFailure) : Finds (throw failure : Walker α) := fun input =>
  ⟨.error failure, .none, input, .refl input, fun _ => rfl⟩

theorem lift {read : Read ReadFailure α} (moves : Moves read) : Finds (liftM read) := by
  intro input
  obtain ⟨outcome, last, moved, result⟩ := moves input
  refine ⟨outcome, .none, last, moved, fun record => ?_⟩
  rw [Walker.lift_apply, result]
  cases outcome with
  | ok _ => rfl
  | error _ => rfl

theorem found (findings : Findings) : Finds (Walker.found findings.apply) := fun input =>
  ⟨.ok (), findings, input, .refl input, fun _ => rfl⟩

theorem bind {walker : Walker α} {next : α → Walker β} (first : Finds walker)
    (last : ∀ a, Finds (next a)) : Finds (walker >>= next) := by
  intro input
  obtain ⟨outcome, found, stop, moved, result⟩ := first input
  cases outcome with
  | error failure =>
    refine ⟨.error failure, found, stop, moved, fun record => ?_⟩
    simp only [Bind.bind, EStateM.bind, result, resultAt]
  | ok a =>
    obtain ⟨outcome, more, final, further, ended⟩ := last a stop
    refine ⟨outcome, found.andThen more, final, moved.trans further, fun record => ?_⟩
    simp only [Bind.bind, EStateM.bind, result, resultAt, ended, Findings.apply_andThen]

theorem repeatUpTo {stalled : Walker β} {step : α → Walker (α ⊕ β)} (gives : Finds stalled)
    (turn : ∀ a, Finds (step a)) (bound : Nat) (a : α) :
    Finds (repeatUpTo stalled step bound a) := by
  induction bound generalizing a with
  | zero => exact gives
  | succ bound ih =>
    refine (turn a).bind fun next => ?_
    cases next with
    | inl next => exact ih next
    | inr result => exact pure result

end Finds

theorem readApplication_finds : Finds readApplication := by
  refine .bind (.lift (.skip 1)) fun _ => .bind (.lift (.field 8)) fun _ =>
    .bind (.lift (.field 3)) fun _ => ?_
  split
  · exact .bind (.lift (.skip 2)) fun _ => .bind (.lift (.littleEndian 2)) fun count =>
      .found ⟨some count, none, none⟩
  · split
    · exact .bind (.lift readXmp_moves) fun xmp => .found ⟨none, none, some xmp⟩
    · exact .lift skipSubBlocks_moves

theorem readGraphicControl_finds : Finds readGraphicControl :=
  .bind (.lift (.skip 2)) fun _ => .bind (.lift (.littleEndian 2)) fun delay =>
    .bind (.found ⟨none, some delay, none⟩) fun _ => .lift (.skip 1)

theorem readExtension_finds : Finds readExtension := by
  refine .bind (.lift .byte) fun label => ?_
  split
  · exact .bind (.lift (.skip 13)) fun _ => .lift skipSubBlocks_moves
  · exact readApplication_finds
  · exact readGraphicControl_finds
  · exact .lift skipSubBlocks_moves

theorem walkBlock_finds : Finds walkBlock := by
  refine .bind (.lift .byte) fun tag => ?_
  split
  · exact .bind (.lift skipImage_moves) fun _ => .pure _
  · exact .bind readExtension_finds fun _ => .pure _
  · exact .pure _
  · exact .pure _

theorem walkBlocks_finds : Finds walkBlocks := fun input =>
  Finds.repeatUpTo (.throw _) (fun _ => walkBlock_finds) (input.remaining + 1) () input

/-- What a header says where no extension has been read yet, where its flags stand, and how
long it is. -/
theorem readHeader_inv {c start : Cursor} {header : Record}
    (parsed : readHeader c = .ok header start) :
    ∃ width height flags, c.data[c.pos + 10]? = some flags ∧ start = c.forward 13 ∧
      header = ⟨width, height, colorTableLength? flags, defaultLoopCount, 0, none⟩ := by
  obtain ⟨signature, c₁, took₁, parsed⟩ := state_bind_eq_ok.mp parsed
  split at parsed
  case isFalse => cases parsed
  obtain ⟨version, c₂, took₂, parsed⟩ := state_bind_eq_ok.mp parsed
  split at parsed
  case isFalse => cases parsed
  obtain ⟨width, c₃, took₃, parsed⟩ := state_bind_eq_ok.mp parsed
  obtain ⟨height, c₄, took₄, parsed⟩ := state_bind_eq_ok.mp parsed
  obtain ⟨flags, c₅, took₅, parsed⟩ := state_bind_eq_ok.mp parsed
  obtain ⟨_, c₆, took₆, parsed⟩ := state_bind_eq_ok.mp parsed
  cases parsed
  have place : c₄ = c.forward 10 := by
    rw [Read.littleEndian_ok (Read.lift_ok took₄), Read.littleEndian_ok (Read.lift_ok took₃),
      Read.field_ok (Read.lift_ok took₂), Read.field_ok (Read.lift_ok took₁)]
    simp only [Cursor.forward_forward]
  have found := Read.byte_found (Read.lift_ok took₅)
  rw [place] at found
  refine ⟨width, height, flags, found, ?_, rfl⟩
  rw [Read.skip_ok (Read.lift_ok took₆), Read.byte_ok (Read.lift_ok took₅), place]
  simp only [Cursor.forward_forward]

theorem readHeader_ok {c start : Cursor} {header : Record} (parsed : readHeader c = .ok header start) :
    (∃ flags, header.colorTableLength = colorTableLength? flags) ∧
      header.loopCount = defaultLoopCount ∧ header.delayTime = 0 ∧ header.xmp = none ∧
      start.pos = c.pos + 13 := by
  obtain ⟨width, height, flags, -, rfl, rfl⟩ := readHeader_inv parsed
  exact ⟨⟨flags, rfl⟩, rfl, rfl, rfl, rfl⟩

/-- The abandoned walk left no trace in what the second walk keeps. -/
def Findings.Covers (found : Findings) (abandoned : Record) : Prop :=
  (found.loopCount? = .none → abandoned.loopCount = defaultLoopCount) ∧
    (found.delayTime? = .none → abandoned.delayTime = 0) ∧
    (found.xmp? = .none → abandoned.xmp = .none)

theorem blockStart_moved (start : Cursor) (record : Record) :
    (start.withMarks (start.pos :: start.marks)).Moved (blockStart start record) := by
  unfold blockStart
  cases record.colorTableLength with
  | none => exact .refl _
  | some length =>
    simp only
    split
    · exact .forward _ _
    · exact .refl _

theorem resultAt_ok {ε σ α : Type} {outcome : Except ε α} {s t : σ} {a : α}
    (result : resultAt outcome s = .ok a t) : outcome = .ok a ∧ s = t := by
  cases outcome with
  | ok b =>
    cases result
    exact ⟨rfl, rfl⟩
  | error _ => cases result

theorem resultAt_error {ε σ α : Type} {outcome : Except ε α} {s t : σ} {e : ε}
    (result : resultAt outcome s = .error e t) : s = t := by
  cases outcome with
  | ok b => cases result
  | error _ =>
    cases result
    rfl

theorem walkBlocks_abandoned {input : Cursor} {header : Record} {failure : ReadFailure}
    {abandoned : Walk} (ran : walkBlocks ⟨input, header⟩ = .error failure abandoned) :
    input.Moved abandoned.input ∧ ∃ found : Findings, abandoned.record = found.apply header := by
  obtain ⟨outcome, found, last, moved, result⟩ := walkBlocks_finds input
  have stopped := resultAt_error ((result header).symm.trans ran)
  rw [← stopped]
  exact ⟨moved, found, rfl⟩

theorem walkBlocks_kept {input : Cursor} {header : Record} {kept : Walk}
    (ran : walkBlocks ⟨input, header⟩ = .ok () kept) :
    ∃ found : Findings, ∀ record,
      walkBlocks ⟨input, record⟩ = .ok () ⟨kept.input, found.apply record⟩ := by
  obtain ⟨outcome, found, last, _, result⟩ := walkBlocks_finds input
  obtain ⟨rfl, stopped⟩ := resultAt_ok ((result header).symm.trans ran)
  refine ⟨found, fun record => ?_⟩
  rw [← stopped]
  exact result record

/-- Adding to what another walk has found is the same as adding to nothing if what it
has found is hidden. -/
theorem Findings.apply_eq_iff {header : Record} (loops : header.loopCount = defaultLoopCount)
    (still : header.delayTime = 0) (bare : header.xmp = .none) (found old : Findings) :
    found.apply (old.apply header) = found.apply header ↔ found.Covers (old.apply header) := by
  obtain ⟨foundLoops, foundDelay, foundXmp⟩ := found
  simp only [apply, Covers, Record.mk.injEq, loops, still, bare, true_and]
  refine and_congr ?_ (and_congr ?_ ?_)
  · cases foundLoops <;> simp
  · cases foundDelay <;> simp
  · cases foundXmp <;> simp

/-- When the first walk runs off the end, the second one adds what it finds to the record
that the first has left. The result is that of a walk from the header's record exactly if
every trace of the first walk is covered. -/
theorem read_retry {data : Bytes} {header : Record} {start : Cursor} {failure : ReadFailure}
    {abandoned kept : Walk} (parsed : readHeader (.ofBytes data) = .ok header start)
    (first : walkBlocks ⟨blockStart start header, header⟩ = .error failure abandoned)
    (truncated : failure.isTruncation = true)
    (second : walkBlocks ⟨start, header⟩ = .ok () kept) :
    ∃ found : Findings,
      (∀ record, walkBlocks ⟨start, record⟩ = .ok () ⟨kept.input, found.apply record⟩) ∧
      read.onBytes data = (.ok (found.apply abandoned.record), kept.input.pos) ∧
      (read.onBytes data = (.ok kept.record, kept.input.pos) ↔ found.Covers abandoned.record) := by
  obtain ⟨⟨flags, declared⟩, loops, still, bare, place⟩ := readHeader_ok parsed
  obtain ⟨moved, old, left⟩ := walkBlocks_abandoned first
  obtain ⟨found, finds⟩ := walkBlocks_kept second
  have near : start.pos + (colorTableLength? flags).getD 0 ≤ Read.maxPosition := by
    have table : (colorTableLength? flags).getD 0 ≤ 768 := by
      cases given : colorTableLength? flags with
      | none => exact Nat.zero_le _
      | some length => exact colorTableLength?_le given
    have zero : (Cursor.ofBytes data).pos = 0 := rfl
    have most : Read.maxPosition = 0xFFFFFFFFFFFFFFFF := rfl
    omega
  have retried : readBlocks ⟨start, header⟩ = .ok () ⟨kept.input, found.apply abandoned.record⟩ := by
    have back := ((blockStart_moved start header).trans moved).reset_eq
    rw [readBlocks_eq declared near, walkOrRetry_eq, first]
    simp only [truncated, if_true]
    rw [Walker.lift_bind, back]
    exact finds abandoned.record
  have result : read.onBytes data = (.ok (found.apply abandoned.record), kept.input.pos) := by
    unfold Read.onBytes read
    simp only [parsed, retried]
  have same := second.symm.trans (finds header)
  simp only [EStateM.Result.ok.injEq, true_and] at same
  have fresh : kept.record = found.apply header := by rw [same]
  refine ⟨found, finds, result, ?_⟩
  rw [result, fresh, left, Prod.mk.injEq, Except.ok.injEq, and_iff_left rfl]
  exact Findings.apply_eq_iff loops still bare found old

/-- The declared table is missing. The walk from where it would end begins inside a
comment, takes a delay from there and runs off the end. -/
def overrunning : Bytes :=
  Bytes.ofText "GIF89a" ++ [1, 0, 1, 0, 0x01, 0, 0] ++
    [0x21, 0xFE, 18, 1, 1, 1, 1, 1, 1, 1, 1, 1, 0x21, 0xF9, 4, 0, 99, 0, 0, 0, 0x2C, 0x00, 0x3B]

theorem read_retry_overrunning : ∃ header start failure abandoned kept,
    readHeader (.ofBytes overrunning) = .ok header start ∧
      walkBlocks ⟨blockStart start header, header⟩ = .error failure abandoned ∧
      failure.isTruncation = true ∧ walkBlocks ⟨start, header⟩ = .ok () kept ∧
      ∃ found : Findings,
        (∀ record, walkBlocks ⟨start, record⟩ = .ok () ⟨kept.input, found.apply record⟩) ∧
        read.onBytes overrunning = (.ok (found.apply abandoned.record), kept.input.pos) ∧
        (read.onBytes overrunning = (.ok kept.record, kept.input.pos) ↔
          found.Covers abandoned.record) :=
  ⟨_, _, _, _, _, rfl, rfl, rfl, rfl, read_retry rfl rfl rfl rfl⟩

/-- The delay of the abandoned walk is in the result. -/
theorem read_overrunning : ∃ header start failure abandoned kept,
    readHeader (.ofBytes overrunning) = .ok header start ∧
      walkBlocks ⟨blockStart start header, header⟩ = .error failure abandoned ∧
      failure.isTruncation = true ∧ walkBlocks ⟨start, header⟩ = .ok () kept ∧
      (kept.record, kept.input.pos) = (⟨1, 1, some 12, 1, 0, none⟩, 36) ∧
      read.onBytes overrunning = (.ok ⟨1, 1, some 12, 1, 99, none⟩, 36) :=
  ⟨_, _, _, _, _, rfl, rfl, rfl, rfl, rfl, rfl⟩

end Gif

end ImageDerivative
