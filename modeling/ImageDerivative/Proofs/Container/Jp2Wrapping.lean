import ImageDerivative.Proofs.Container.Jp2Stream
import ImageDerivative.Proofs.Container.Moves

/-! A codestream reads the same by itself and inside its box. The walk over its segments
looks at nothing but the bytes ahead, so that other bytes before them only move the place
where it stops. Seeks are the exception: they count from the start. They are short, and
begin inside the data, so that none of them is refused in one place and not in the other. -/
namespace ImageDerivative

namespace Cursor

/-- The same place in data that has `front` before it. -/
def behind (c : Cursor) (front : Bytes) : Cursor where
  data := front ++ c.data
  size := front.length + c.size
  pos := front.length + c.pos
  rest := c.rest
  marks := c.marks.map fun mark => front.length + mark
  size_eq := by rw [c.size_eq, List.length_append]
  rest_eq := by rw [c.rest_eq, List.drop_length_add_append]

variable (c : Cursor) (front : Bytes)

theorem ext_pos {c d : Cursor} (data : c.data = d.data) (pos : c.pos = d.pos)
    (marks : c.marks = d.marks) : c = d := by
  obtain ⟨cData, cSize, cPos, cRest, cMarks, rfl, rfl⟩ := c
  obtain ⟨dData, dSize, dPos, dRest, dMarks, rfl, rfl⟩ := d
  simp only at data pos marks
  subst data pos marks
  rfl

theorem forward_behind (n : Nat) : (c.behind front).forward n = (c.forward n).behind front :=
  ext_pos rfl (Nat.add_assoc _ _ _) rfl

theorem toEnd_behind : (c.behind front).toEnd = c.toEnd.behind front := ext_pos rfl rfl rfl

theorem remaining_behind : (c.behind front).remaining = c.remaining := Nat.add_sub_add_left _ _ _

theorem exhausted_behind : (c.behind front).exhausted = c.exhausted.behind front := by
  rw [exhausted, remaining_behind, forward_behind, exhausted]

end Cursor

/-- Behind `front`, `other` does what `read` does, and answers what `f` makes of the
answer. -/
def Read.Follows {ε α β : Type} (front : Bytes) (f : α → β) (read : Read ε α)
    (other : Read ε β) : Prop :=
  ∀ c, front.length + c.size ≤ maxSkip → ∃ outcome d, c.Moved d ∧ read c = resultAt outcome d ∧
    other (c.behind front) = resultAt (outcome.map f) (d.behind front)

namespace Read.Follows

variable {ε α β γ δ : Type} {front : Bytes} {f : α → β} {g : γ → δ}

theorem pure (a : α) : Follows front f (pure a : Read ε α) (pure (f a)) :=
  fun c _ => ⟨.ok a, c, .refl c, rfl, rfl⟩

theorem throw (e : ε) : Follows front f (throw e : Read ε α) (throw e) :=
  fun c _ => ⟨.error e, c, .refl c, rfl, rfl⟩

theorem bind {read : Read ε α} {other : Read ε β} {next : α → Read ε γ} {onward : β → Read ε δ}
    (first : Follows front f read other) (last : ∀ a, Follows front g (next a) (onward (f a))) :
    Follows front g (read >>= next) (other >>= onward) := by
  intro c room
  obtain ⟨outcome, d, moved, here, there⟩ := first c room
  simp only [Bind.bind, EStateM.bind, here, there]
  cases outcome with
  | error failure => exact ⟨.error failure, d, moved, rfl, rfl⟩
  | ok a =>
    have size : d.size = c.size := by rw [d.size_eq, c.size_eq, moved.same_data]
    obtain ⟨outcome, e, further, here, there⟩ := last a d (by rwa [size])
    exact ⟨outcome, e, moved.trans further, here, there⟩

theorem repeatUpTo {stalled : Read ε γ} {stuck : Read ε δ} {step : α → Read ε (α ⊕ γ)}
    {turn : β → Read ε (β ⊕ δ)} (gives : Follows front g stalled stuck)
    (turns : ∀ a, Follows front (Sum.map f g) (step a) (turn (f a))) (bound : Nat) (a : α) :
    Follows front g (repeatUpTo stalled step bound a) (repeatUpTo stuck turn bound (f a)) := by
  induction bound generalizing a with
  | zero => exact gives
  | succ bound ih =>
    refine (turns a).bind fun next => ?_
    cases next with
    | inl next => exact ih next
    | inr result => exact pure result

theorem walk {step : α → Read ε (α ⊕ γ)} {turn : β → Read ε (β ⊕ δ)}
    (turns : ∀ a, Follows front (Sum.map f g) (step a) (turn (f a))) (stalled : ε) (a : α) :
    Follows front g (walk step stalled a) (walk turn stalled (f a)) := by
  intro c room
  have walked : Read.walk turn stalled (f a) (c.behind front) =
      ImageDerivative.repeatUpTo (MonadExcept.throw stalled) turn (c.remaining + 1) (f a)
        (c.behind front) := by
    rw [← c.remaining_behind front]
    rfl
  rw [walked]
  exact repeatUpTo (throw stalled) turns (c.remaining + 1) a c room

theorem field (width : Nat) : Follows front id (field width) (field width) := by
  intro c _
  simp only [Read.field, Bind.bind, EStateM.bind, get, getThe, MonadStateOf.get, EStateM.get]
  have ahead : (c.behind front).rest = c.rest := rfl
  rw [ahead]
  split
  · exact ⟨.ok _, _, .forward c width, rfl, congrArg _ (c.forward_behind front width)⟩
  · exact ⟨.error .endOfField, _, .toEnd c, rfl, congrArg _ (c.toEnd_behind front)⟩

theorem bigEndian (width : Nat) : Follows front id (bigEndian width) (bigEndian width) :=
  (field width).bind fun _ => pure _

theorem run (count : Nat) : Follows front id (run count) (run count) := by
  intro c _
  have ahead : (c.behind front).rest = c.rest := rfl
  rw [run_eq, run_eq, c.remaining_behind front, ahead]
  split
  · exact ⟨.ok _, _, .forward c count, rfl, congrArg _ (c.forward_behind front count)⟩
  · exact ⟨.error .endOfRun, _, .forward c _, rfl, congrArg _ (c.exhausted_behind front)⟩

theorem lift {read other : Read ReadFailure α} (same : Follows front id read other) :
    Follows front id (liftM read : Read MetadataError α) (liftM other) := by
  intro c room
  obtain ⟨outcome, d, moved, here, there⟩ := same c room
  rw [Reads.lift_apply, Reads.lift_apply, here, there]
  cases outcome with
  | ok a => exact ⟨.ok a, d, moved, rfl, rfl⟩
  | error failure => exact ⟨.error (.io failure), d, moved, rfl, rfl⟩

end Read.Follows

namespace Jp2

open Read (Follows)

theorem segmentLength_follows (front : Bytes) : Follows front id segmentLength segmentLength := by
  refine (Follows.bigEndian 2).lift.bind fun length => ?_
  simp only [id]
  split
  · exact .throw _
  · exact .pure _

theorem readSegment_follows (front : Bytes) : Follows front id readSegment readSegment :=
  (segmentLength_follows front).bind fun length => (Follows.run length).lift

/-- A length that has been read is that of two bytes, and they are inside the data. -/
theorem segmentLength_ok {n : Nat} {c d : Cursor} (ran : segmentLength c = .ok n d) :
    n ≤ 65533 ∧ d.pos ≤ d.size := by
  obtain ⟨length, m, counted, rest⟩ := state_bind_eq_ok.mp ran
  obtain ⟨bytes, found, rfl, rfl⟩ := (Read.bigEndian_ok_iff (by decide)).mp (Read.lift_ok counted)
  obtain ⟨inside, written⟩ := (Bytes.slice?_eq_some_iff (by decide)).mp found
  have two : bytes.length = 2 := by
    rw [written, List.length_take, List.length_drop]
    omega
  have bound := Bytes.ofBigEndian_lt bytes
  rw [two] at bound
  have size : c.size = c.data.length := c.size_eq
  split at rest
  · cases rest
  · cases rest
    simp only [Cursor.forward]
    omega

variable (front : Bytes) (wrapping : Wrapping) (record : Record)

/-- A segment that is passed over. -/
theorem passSegment_follows {α β : Type} (f : α → β) (a : α) : Follows front f
    (do Read.skip (← segmentLength); return a : Read MetadataError α)
    (do Read.skip (← segmentLength); return f a) := by
  intro c room
  obtain ⟨outcome, d, moved, here, there⟩ := segmentLength_follows front c room
  simp only [Bind.bind, EStateM.bind, here, there]
  cases outcome with
  | error failure => exact ⟨.error failure, d, moved, rfl, rfl⟩
  | ok n =>
    obtain ⟨short, inside⟩ := segmentLength_ok here
    have size : d.size = c.size := by rw [d.size_eq, c.size_eq, moved.same_data]
    have most : Read.maxPosition = Read.maxSkip + Read.maxSkip + 1 := by decide
    have far : 65533 ≤ Read.maxSkip := by decide
    have first : Read.skip n d = .ok () (d.forward n) :=
      Read.skip_ok_iff.mpr ⟨by omega, by omega, rfl⟩
    have second : Read.skip n (d.behind front) = .ok () ((d.behind front).forward n) := by
      refine Read.skip_ok_iff.mpr ⟨by omega, ?_, rfl⟩
      show front.length + d.pos + n ≤ Read.maxPosition
      omega
    refine ⟨.ok a, d.forward n, moved.trans (.forward d n), ?_, ?_⟩
    · simp only [resultAt, Reads.lift_apply, first]
      rfl
    · simp only [Except.map, id, resultAt, Reads.lift_apply, second, Cursor.forward_behind]
      rfl

/-- A segment in which the byte at `place` is the number of decompositions. -/
theorem readLevels_follows (place : Nat) (defect : Defect) :
    Follows front (Sum.map wrapping.complete wrapping.complete)
      (do
        match (← readSegment)[place]? with
        | some levels => return .inl { record with decompositionLevels := levels.toNat }
        | none => throw (malformed defect) : Read MetadataError (Record ⊕ Record))
      (do
        match (← readSegment)[place]? with
        | some levels =>
          return .inl { wrapping.complete record with decompositionLevels := levels.toNat }
        | none => throw (malformed defect)) := by
  refine (readSegment_follows front).bind fun data => ?_
  simp only [id]
  cases data[place]? with
  | none => exact .throw _
  | some levels => exact .pure (Sum.inl { record with decompositionLevels := levels.toNat })

theorem walkMarker_follows :
    Follows front (Sum.map wrapping.complete wrapping.complete) (walkMarker record)
      (walkMarker (wrapping.complete record)) := by
  refine (Follows.field 2).lift.bind fun marker => ?_
  simp only [id]
  split
  · split
    · exact .pure (Sum.inl record)
    · refine (readSegment_follows front).bind fun data => ?_
      simp only [id]
      split
      · exact .throw _
      · exact .pure (Sum.inl (record.withSize data))
    · exact readLevels_follows front wrapping record 5 .codingTooShort
    · exact readLevels_follows front wrapping record (componentWidth record + 1)
        .componentCodingTooShort
    · exact .pure (Sum.inr record)
    · exact .pure (Sum.inr record)
    · exact .pure (Sum.inr record)
    · exact passSegment_follows front _ (Sum.inl record)
  · exact .pure (Sum.inr record)

theorem readCodestream_follows :
    Follows front wrapping.complete (readCodestream record)
      (readCodestream (wrapping.complete record)) :=
  .walk (walkMarker_follows front wrapping) _ record

/-- A stream that begins as a codestream is read as one from its start on. -/
theorem read_bare {data : Bytes} (starts : Format.codestreamSignature <+: data)
    (long : 12 ≤ data.length) :
    read (Cursor.ofBytes data) = readCodestream {} (Cursor.ofBytes data) := by
  let input := Cursor.ofBytes data
  have twelve : (data.take 12).length = 12 := List.length_take_of_le long
  have start : (0 : Nat) + (data.take 12).length ≤ Read.maxPosition := by
    rw [twelve]
    decide
  have taken : Read.field 12 (input.withMarks [0]) =
      .ok (data.take 12) ((input.withMarks [0]).forward (data.take 12).length) :=
    Reads.field twelve (input.withMarks [0]) (data.drop 12) (List.take_append_drop 12 data).symm start
  have marked : (Read.mark : Read MetadataError Unit) input = .ok () (input.withMarks [0]) := rfl
  have again : Read.reset ((input.withMarks [0]).forward (data.take 12).length) = .ok () input := rfl
  have named : (data.take 12).take 4 = Format.codestreamSignature := by
    rw [List.take_take]
    exact (List.prefix_iff_eq_take.mp starts).symm
  show read input = readCodestream {} input
  simp only [read, bind, EStateM.bind, marked, Reads.lift_apply, taken, again, named, if_true]

/-- Reading a codestream fails inside its box exactly as it does by itself, and where it
succeeds the record differs in the metadata of the boxes alone. No data is longer than a
seek can be. -/
theorem read_wrapped (wrapping : Wrapping) {cs : Bytes}
    (starts : Format.codestreamSignature <+: cs) (long : 12 ≤ cs.length)
    (fits : wrapping.form.Fits cs.length)
    (room : (wrapping.front cs.length ++ cs).length ≤ Read.maxSkip) :
    read.onBytes (wrapping.front cs.length ++ cs) =
      ((read.onBytes cs).1.map fun bare =>
        { bare with
          exif := lastKept? exifUuid wrapping.items
          iptc := lastKept? iptcUuid wrapping.items
          xmp := (lastKept? xmpUuid wrapping.items).bind Xmp.rdfOfBytes },
        (wrapping.front cs.length).length + (read.onBytes cs).2) := by
  let front := wrapping.front cs.length
  let bare := Cursor.ofBytes cs
  have size : front.length + bare.size ≤ Read.maxSkip := by
    rw [List.length_append] at room
    exact room
  have place : (Cursor.ofBytes (front ++ cs)).pos + front.length ≤ Read.maxPosition := by
    have most : Read.maxSkip ≤ Read.maxPosition := by decide
    show 0 + front.length ≤ Read.maxPosition
    omega
  have behind : (Cursor.ofBytes (front ++ cs)).forward front.length = bare.behind front :=
    Cursor.ext_pos rfl (Nat.add_comm _ _) rfl
  obtain ⟨outcome, d, -, here, there⟩ := readCodestream_follows front wrapping {} bare size
  have alone : read bare = resultAt outcome d := (read_bare starts long).trans here
  have inside : read (Cursor.ofBytes (front ++ cs)) =
      resultAt (outcome.map wrapping.complete) (d.behind front) := by
    rw [read_signed (wrapping.signed _ _), wrapping.walkBoxes_front fits rfl place, behind]
    exact there
  simp only [Read.onBytes]
  rw [alone, inside]
  cases outcome with
  | ok record => rfl
  | error failure => rfl

/-- The boxes of `layered` before a codestream whose own box tells its length. -/
def measured : Wrapping := { layered.wrapping with form := .short }

/-- The size segment declares 39 bytes and has six. -/
def unfinished : Bytes := Format.codestreamSignature ++ [0, 41, 0, 0, 0, 0, 0, 7]

theorem read_wrapped_unfinished :
    Format.codestreamSignature <+: unfinished ∧ measured.form.Fits unfinished.length ∧
    (measured.front unfinished.length ++ unfinished).length ≤ Read.maxSkip ∧
    read.onBytes (measured.front unfinished.length ++ unfinished) =
      (.error (.io .endOfRun), 219) := by
  have starts : Format.codestreamSignature <+: unfinished := by decide
  have fits : measured.form.Fits unfinished.length := by decide
  have room : (measured.front unfinished.length ++ unfinished).length ≤ Read.maxSkip := by
    decide +kernel
  have length : (measured.front unfinished.length).length = 207 := by decide +kernel
  have alone : read.onBytes unfinished = (.error (.io .endOfRun), 12) := by cbv
  have result := read_wrapped measured starts (by decide) fits room
  rw [alone, length] at result
  exact ⟨starts, fits, room, result⟩

end Jp2

end ImageDerivative
