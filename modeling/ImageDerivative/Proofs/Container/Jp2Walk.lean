import ImageDerivative.Proofs.Container.Jp2Boxes

/-! The walk over the boxes of a JP2 stream. It ends without an error where the boxes
tile the stream, and also behind a last box that is only passed over, wherever its
length leads. -/
namespace ImageDerivative.Jp2

def readHeader : Read MetadataError (Bytes × Nat) := do
  let length ← Read.bigEndian 4
  let type ← Read.field 4
  return (type, ← contentLength length)

def readContents (record : Record) (type : Bytes) (length : Nat) :
    Read MetadataError (Record ⊕ Record) := do
  if type = uuidType then return .inl (← readUuidBox record length)
  else if type = codestreamType then return .inr (← readCodestream record)
  else
    Read.skip length
    return .inl record

theorem walkBox_eq (record : Record) (c : Cursor) :
    walkBox record c = if c.size ≤ c.pos then .ok (.inr record) c
      else (readHeader >>= fun header => readContents record header.1 header.2) c := by
  have parts : (readHeader >>= fun header => readContents record header.1 header.2) = (do
      let length ← Read.bigEndian 4
      let type ← Read.field 4
      let content ← contentLength length
      readContents record type content) := by
    simp only [readHeader, bind_assoc, pure_bind]
  rw [parts]
  show (if c.size ≤ c.pos then _ else _ : Read MetadataError (Record ⊕ Record)) c = _
  split
  · rfl
  · rfl

variable {c d : Cursor}

theorem contentLength_eq (length : Nat) (c : Cursor) :
    contentLength length c = match length with
      | 0 => .ok (c.size - c.pos) c
      | 1 => match c.data.slice? c.pos 8 with
        | some extended =>
          if Bytes.ofBigEndian extended < 16 then .error (malformed .extendedBoxLength) (c.forward 8)
          else .ok (Bytes.ofBigEndian extended - 16) (c.forward 8)
        | none => .error (.io .endOfField) c.toEnd
      | length =>
        if length < 8 then .error (malformed (.boxLength length)) c else .ok (length - 8) c := by
  unfold contentLength
  split
  · rfl
  · simp only [Read.bigEndian, bind, EStateM.bind, Reads.lift_apply, Read.field_eq (by decide : 8 ≠ 0)]
    cases c.data.slice? c.pos 8 with
    | none => rfl
    | some extended =>
      simp only [pure, EStateM.pure]
      split
      · rfl
      · rfl
  · simp only
    split
    · rfl
    · rfl

/-- The length of the contents is the distance between where they begin and stop, and the
header is read up to where they begin. -/
theorem contentLength_ok_iff {start length n : Nat} (header : c.pos = start + 8) :
    contentLength length c = .ok n d ↔
      ∃ content stop, extent? c.data start length = some (content, stop) ∧ n = stop - content ∧
        d = c.forward (content - c.pos) := by
  rw [contentLength_eq]
  unfold extent?
  split
  · have whole : c.size - c.pos = c.data.length - (start + 8) := by rw [c.size_eq, header]
    have here : c.forward (start + 8 - c.pos) = c := by
      rw [header, Nat.sub_self, Cursor.forward_zero]
    simp [whole, here, eq_comm]
  · rw [header]
    cases c.data.slice? (start + 8) 8 with
    | none => simp
    | some extended =>
      by_cases short : Bytes.ofBigEndian extended < 16
      · simp [short]
      · have covered : start + Bytes.ofBigEndian extended - (start + 16) =
            Bytes.ofBigEndian extended - 16 := by omega
        have behind : start + 16 - (start + 8) = 8 := by omega
        simp [short, covered, behind, eq_comm]
  · by_cases short : length < 8
    · simp [short]
    · have covered : start + length - (start + 8) = length - 8 := by omega
      have here : c.forward (start + 8 - c.pos) = c := by
        rw [header, Nat.sub_self, Cursor.forward_zero]
      simp [short, covered, here, eq_comm]

theorem readHeader_ok_iff {header : Bytes × Nat} :
    readHeader c = .ok header d ↔
      ∃ box, boxAt? c.data c.pos = some box ∧ header = (box.type, box.stop - box.content) ∧
        d = c.forward (box.content - c.pos) := by
  have four : 4 ≠ 0 := by decide
  have behind {box : Box} (found : boxAt? c.data c.pos = some box) :
      ((c.forward 4).forward 4).forward (box.content - ((c.forward 4).forward 4).pos) =
        c.forward (box.content - c.pos) := by
    have bounds := (boxAt?_bounds found).1
    simp only [Cursor.forward_forward]
    congr 1
    simp only [Cursor.forward]
    omega
  constructor
  · intro ran
    obtain ⟨_, _, counted, ran⟩ := state_bind_eq_ok.mp ran
    obtain ⟨length, measured, rfl, rfl⟩ := (Read.bigEndian_ok_iff four).mp (Read.lift_ok counted)
    obtain ⟨type, _, typed, ran⟩ := state_bind_eq_ok.mp ran
    obtain ⟨named, rfl⟩ := (Read.field_ok_iff four).mp (Read.lift_ok typed)
    obtain ⟨_, _, covered, rest⟩ := state_bind_eq_ok.mp ran
    obtain ⟨content, stop, extent, rfl, rfl⟩ :=
      (contentLength_ok_iff (rfl : _ = c.pos + 8)).mp covered
    cases rest
    have found : boxAt? c.data c.pos = some ⟨type, content, stop⟩ :=
      boxAt?_eq_some_iff.mpr ⟨length, measured, named, extent⟩
    have read := behind found
    exact ⟨_, found, rfl, read⟩
  · rintro ⟨box, found, rfl, rfl⟩
    obtain ⟨length, measured, named, extent⟩ := boxAt?_eq_some_iff.mp found
    have counted := (Read.bigEndian_ok_iff four).mpr ⟨length, measured, rfl, rfl⟩
    have typed := (Read.field_ok_iff (c := c.forward 4) four).mpr ⟨named, rfl⟩
    have covered := (contentLength_ok_iff (rfl : ((c.forward 4).forward 4).pos = c.pos + 8)).mpr
      ⟨_, _, extent, rfl, rfl⟩
    rw [← behind found]
    refine state_bind_eq_ok.mpr ⟨_, _, Read.lift_ok_iff.mpr counted, ?_⟩
    refine state_bind_eq_ok.mpr ⟨_, _, Read.lift_ok_iff.mpr typed, ?_⟩
    exact state_bind_eq_ok.mpr ⟨_, _, covered, rfl⟩

theorem keep_ok_iff {n : Nat} {f : Bytes → Record} :
    (∃ next, (do return f (← Read.run n) : Read MetadataError Record) c = .ok next d) ↔
      n ≤ c.remaining ∧ d = c.forward n := by
  constructor
  · rintro ⟨next, ran⟩
    obtain ⟨_, _, taken, rest⟩ := state_bind_eq_ok.mp ran
    obtain ⟨inside, -, rfl⟩ := Read.run_ok_iff.mp (Read.lift_ok taken)
    cases rest
    exact ⟨inside, rfl⟩
  · rintro ⟨inside, rfl⟩
    have taken := (Read.run_ok_iff (d := c.forward n)).mpr ⟨inside, rfl, rfl⟩
    exact ⟨_, state_bind_eq_ok.mpr ⟨_, _, Read.lift_ok_iff.mpr taken, rfl⟩⟩

theorem pass_ok_iff {α : Type} {n : Nat} {a b : α} :
    (do Read.skip n; return a : Read MetadataError α) c = .ok b d ↔
      b = a ∧ n ≤ Read.maxSkip ∧ c.pos + n ≤ Read.maxPosition ∧ d = c.forward n := by
  constructor
  · intro ran
    obtain ⟨⟨⟩, _, passed, rest⟩ := state_bind_eq_ok.mp ran
    obtain ⟨near, inside, rfl⟩ := Read.skip_ok_iff.mp (Read.lift_ok passed)
    cases rest
    exact ⟨rfl, near, inside, rfl⟩
  · rintro ⟨rfl, near, inside, rfl⟩
    have passed := (Read.skip_ok_iff (d := c.forward n)).mpr ⟨near, inside, rfl⟩
    exact state_bind_eq_ok.mpr ⟨_, _, Read.lift_ok_iff.mpr passed, rfl⟩

def readIdentified (record : Record) (length : Nat) (uuid : Bytes) : Read MetadataError Record := do
  if uuid = exifUuid then
    return { record with exif := some (← Read.run length) }
  else if uuid = iptcUuid then
    return { record with iptc := some (← Read.run length) }
  else if uuid = xmpUuid then
    return { record with xmp := Xmp.rdfOfBytes (← Read.run length) }
  else
    Read.skip length
    return record

theorem readIdentified_ok_iff (record : Record) {n : Nat} {uuid : Bytes} :
    (∃ next, readIdentified record n uuid c = .ok next d) ↔
      (if uuid ∈ keptUuids then n ≤ c.remaining
        else n ≤ Read.maxSkip ∧ c.pos + n ≤ Read.maxPosition) ∧ d = c.forward n := by
  unfold readIdentified
  split
  · next same => rw [if_pos (by simp [keptUuids, same]), keep_ok_iff]
  · next notExif =>
    split
    · next same => rw [if_pos (by simp [keptUuids, same]), keep_ok_iff]
    · next notIptc =>
      split
      · next same => rw [if_pos (by simp [keptUuids, same]), keep_ok_iff]
      · next notXmp =>
        rw [if_neg (by simp [keptUuids, notExif, notIptc, notXmp]), and_assoc]
        simp only [pass_ok_iff, exists_eq_left]

theorem readUuidBox_eq (record : Record) (n : Nat) :
    readUuidBox record n =
      if n < 16 then throw (malformed .uuidBoxTooShort)
      else liftM (Read.field 16) >>= readIdentified record (n - 16) := by
  unfold readUuidBox
  split
  · rfl
  · rfl

/-- Behind the header of a box that an identifier opens. -/
theorem readUuidBox_ok_iff (record : Record) {n : Nat} :
    (∃ next, readUuidBox record n c = .ok next d) ↔
      16 ≤ n ∧ d = c.forward n ∧ ∃ uuid, c.data.slice? c.pos 16 = some uuid ∧
        if uuid ∈ keptUuids then c.pos + n ≤ c.size
        else n - 16 ≤ Read.maxSkip ∧ c.pos + n ≤ Read.maxPosition := by
  rw [readUuidBox_eq]
  split
  · next short =>
    constructor
    · rintro ⟨_, ran⟩
      cases ran
    · rintro ⟨covered, -⟩
      omega
  · next covered =>
    have behind : (c.forward 16).forward (n - 16) = c.forward n := by
      rw [Cursor.forward_forward, Nat.add_sub_cancel' (by omega)]
    have stop : (c.forward 16).pos + (n - 16) = c.pos + n := by
      simp only [Cursor.forward]
      omega
    have room {uuid : Bytes} (found : c.data.slice? c.pos 16 = some uuid) :
        n - 16 ≤ (c.forward 16).remaining ↔ c.pos + n ≤ c.size := by
      have inside := ((Bytes.slice?_eq_some_iff (by decide)).mp found).1
      have size : c.size = c.data.length := c.size_eq
      simp only [Cursor.remaining, Cursor.forward]
      omega
    constructor
    · rintro ⟨next, ran⟩
      obtain ⟨uuid, _, taken, ran⟩ := state_bind_eq_ok.mp ran
      obtain ⟨found, rfl⟩ := (Read.field_ok_iff (by decide)).mp (Read.lift_ok taken)
      obtain ⟨within, rfl⟩ := (readIdentified_ok_iff record).mp ⟨next, ran⟩
      rw [room found, stop] at within
      exact ⟨by omega, behind, uuid, found, within⟩
    · rintro ⟨-, rfl, uuid, found, within⟩
      have taken := (Read.field_ok_iff (by decide)).mpr ⟨found, rfl⟩
      rw [← room found, ← stop] at within
      obtain ⟨next, ran⟩ := (readIdentified_ok_iff record).mpr ⟨within, rfl⟩
      rw [behind] at ran
      exact ⟨next, state_bind_eq_ok.mpr ⟨_, _, Read.lift_ok_iff.mpr taken, ran⟩⟩

theorem readContents_next_iff {record : Record} {box : Box} (start : c.pos = box.content)
    (covered : box.content ≤ box.stop) (headed : box.content ≤ c.data.length) :
    (∃ next, readContents record box.type (box.stop - box.content) c = .ok (.inl next) d) ↔
      box.type ≠ codestreamType ∧ box.Passes c.data ∧ d = c.forward (box.stop - box.content) := by
  have stop : c.pos + (box.stop - box.content) = box.stop := by omega
  unfold readContents
  split
  · next identified =>
    have other : box.type ≠ codestreamType := by
      rw [identified]
      decide
    rw [Box.passes_identified identified covered]
    have uuidBox := readUuidBox_ok_iff (c := c) (d := d) (n := box.stop - box.content) record
    rw [stop, start, c.size_eq] at uuidBox
    constructor
    · rintro ⟨next, ran⟩
      obtain ⟨_, _, ran, rest⟩ := state_bind_eq_ok.mp ran
      cases rest
      obtain ⟨long, rfl, found⟩ := uuidBox.mp ⟨_, ran⟩
      exact ⟨other, ⟨long, found⟩, rfl⟩
    · rintro ⟨-, ⟨long, found⟩, rfl⟩
      obtain ⟨next, ran⟩ := uuidBox.mpr ⟨long, rfl, found⟩
      exact ⟨next, state_bind_eq_ok.mpr ⟨_, _, ran, rfl⟩⟩
  · next plain =>
    split
    · next codestream =>
      constructor
      · rintro ⟨_, ran⟩
        obtain ⟨_, _, _, rest⟩ := state_bind_eq_ok.mp ran
        cases rest
      · rintro ⟨other, -⟩
        exact absurd codestream other
    · next other =>
      rw [Box.passes_plain plain covered headed]
      simp only [pass_ok_iff, stop, Sum.inl.injEq, exists_eq_left, ne_eq, other, not_false_eq_true,
        true_and, and_assoc]

/-- A turn of the walk goes on behind the box at the cursor, if the box passes. -/
theorem walkBox_next_iff (record : Record) :
    (∃ next, walkBox record c = .ok (.inl next) d) ↔
      c.pos < c.size ∧ ∃ box, boxAt? c.data c.pos = some box ∧ box.type ≠ codestreamType ∧
        box.Passes c.data ∧ d = c.forward (box.stop - c.pos) := by
  rw [walkBox_eq]
  split
  · next ended =>
    constructor
    · rintro ⟨_, ran⟩
      cases ran
    · rintro ⟨ahead, -⟩
      omega
  · next ahead =>
    have contents {box : Box} (found : boxAt? c.data c.pos = some box) :
        (∃ next, readContents record box.type (box.stop - box.content)
          (c.forward (box.content - c.pos)) = .ok (.inl next) d) ↔
        box.type ≠ codestreamType ∧ box.Passes c.data ∧ d = c.forward (box.stop - c.pos) := by
      obtain ⟨header, covered, headed⟩ := boxAt?_bounds found
      have before : c.pos ≤ box.content := by omega
      rw [readContents_next_iff (Cursor.pos_forward_sub before) covered headed,
        Cursor.forward_sub_sub before covered]
      rfl
    constructor
    · rintro ⟨next, ran⟩
      obtain ⟨_, _, header, ran⟩ := state_bind_eq_ok.mp ran
      obtain ⟨box, found, rfl, rfl⟩ := readHeader_ok_iff.mp header
      exact ⟨by omega, box, found, (contents found).mp ⟨next, ran⟩⟩
    · rintro ⟨-, box, found, passes⟩
      obtain ⟨next, ran⟩ := (contents found).mpr passes
      have header := readHeader_ok_iff.mpr ⟨box, found, rfl, rfl⟩
      exact ⟨next, state_bind_eq_ok.mpr ⟨_, _, header, ran⟩⟩

/-- A turn ends the walk at the end of the data or with the codestream. -/
theorem walkBox_last {record result : Record} (ran : walkBox record c = .ok (.inr result) d) :
    (c.size ≤ c.pos ∧ d = c) ∨
      ∃ box, boxAt? c.data c.pos = some box ∧ box.type = codestreamType := by
  rw [walkBox_eq] at ran
  split at ran
  · next ended =>
    cases ran
    exact .inl ⟨ended, rfl⟩
  · obtain ⟨_, _, header, ran⟩ := state_bind_eq_ok.mp ran
    obtain ⟨box, found, rfl, rfl⟩ := readHeader_ok_iff.mp header
    refine .inr ⟨box, found, ?_⟩
    unfold readContents at ran
    split at ran
    · obtain ⟨_, _, _, rest⟩ := state_bind_eq_ok.mp ran
      cases rest
    · split at ran
      · assumption
      · obtain ⟨_, _, _, rest⟩ := state_bind_eq_ok.mp ran
        cases rest

theorem walkBox_end (record : Record) (ended : c.size ≤ c.pos) :
    walkBox record c = .ok (.inr record) c := by
  rw [walkBox_eq, if_pos ended]

/-- Boxes that all pass are passed one a turn. -/
theorem Tiled.turns {data : Bytes} {start stop : Nat} {boxes : List Box}
    (tiled : Tiled data start boxes stop) (passes : ∀ box ∈ boxes, box.Passes data)
    (record : Record) {c : Cursor} (here : c.pos = start) (same : c.data = data) :
    ∃ last, Turns walkBox boxes.length record c last (c.forward (stop - start)) := by
  induction tiled generalizing record c with
  | nil =>
    rw [Nat.sub_self, Cursor.forward_zero]
    exact ⟨record, .none⟩
  | @cons start box boxes stop inside found other rest ih =>
    obtain ⟨first, later⟩ := List.forall_mem_cons.mp passes
    subst here same
    obtain ⟨next, turn⟩ := (walkBox_next_iff record).mpr
      ⟨by rwa [c.size_eq], box, found, other, first, rfl⟩
    obtain ⟨header, covered, -⟩ := boxAt?_bounds found
    have ahead : c.pos ≤ box.stop := by omega
    have ends : box.stop ≤ stop := Nat.le_of_add_right_le rest.bounds.1
    obtain ⟨last, turns⟩ := ih later next (Cursor.pos_forward_sub ahead) rfl
    rw [Cursor.forward_sub_sub ahead ends] at turns
    exact ⟨last, .next turn turns⟩

/-- A walk that succeeds has come by boxes that pass to the end, or to the codestream. -/
theorem walkBoxes_reached {bound : Nat} {record result : Record} {c d : Cursor}
    (ran : repeatUpTo (throw (.io .stalled)) walkBox bound record c = .ok result d) :
    (∃ boxes, Tiled c.data c.pos boxes d.pos ∧ c.data.length ≤ d.pos ∧
      ∀ box ∈ boxes, box.Passes c.data) ∨ ReachesCodestream c.data c.pos := by
  induction bound generalizing record c with
  | zero => cases ran
  | succ bound ih =>
    obtain ⟨turn, m, taken, ran⟩ := state_bind_eq_ok.mp ran
    cases turn with
    | inl next =>
      obtain ⟨ahead, box, found, other, passes, rfl⟩ := (walkBox_next_iff record).mp ⟨next, taken⟩
      obtain ⟨header, covered, -⟩ := boxAt?_bounds found
      rw [c.size_eq] at ahead
      have rest := ih ran
      rw [Cursor.pos_forward_sub (by omega)] at rest
      cases rest with
      | inl ended =>
        obtain ⟨boxes, tiled, past, all⟩ := ended
        exact .inl ⟨box :: boxes, .cons ahead found other tiled, past,
          List.forall_mem_cons.mpr ⟨passes, all⟩⟩
      | inr reached => exact .inr (.cons ahead found other reached)
    | inr last =>
      cases ran
      have size : c.size = c.data.length := c.size_eq
      by_cases ended : c.size ≤ c.pos
      · rw [walkBox_end record ended] at taken
        cases taken
        exact .inl ⟨[], .nil, size ▸ ended, by simp⟩
      · obtain ⟨past, -⟩ | ⟨box, found, codestream⟩ := walkBox_last taken
        · exact absurd past ended
        · exact .inr ⟨[], c.pos, box, .nil, by omega, found, codestream⟩

/-- The walk ends without the codestream exactly behind boxes that all pass. -/
theorem walkBoxes_ok_iff {c : Cursor} {last : Nat} :
    (∃ record d, walkBoxes {} c = .ok record d ∧ d.pos = last) ∧
        ¬ ReachesCodestream c.data c.pos ↔
      ∃ boxes, Tiled c.data c.pos boxes last ∧ c.data.length ≤ last ∧
        ∀ box ∈ boxes, box.Passes c.data := by
  constructor
  · rintro ⟨⟨record, d, ran, rfl⟩, bare⟩
    exact (walkBoxes_reached ran).resolve_right bare
  · rintro ⟨boxes, tiled, past, passes⟩
    refine ⟨?_, tiled.bare past⟩
    obtain ⟨record, turns⟩ := tiled.turns passes {} rfl rfl
    obtain ⟨few, short⟩ := tiled.bounds
    have size : c.size = c.data.length := c.size_eq
    have stop : (c.forward (last - c.pos)).pos = last := Cursor.pos_forward_sub (by omega)
    have ended : (c.forward (last - c.pos)).size ≤ (c.forward (last - c.pos)).pos := by
      rw [stop]
      exact size ▸ past
    have within : boxes.length < c.remaining + 1 := by
      simp only [Cursor.remaining]
      omega
    exact ⟨record, _, turns.finish (walkBox_end record ended) within, stop⟩

/-- A stream that begins with the signature box is read as boxes from its start on. -/
theorem read_signed {data : Bytes} (signed : Format.jp2Signature <+: data) :
    read (Cursor.ofBytes data) = walkBoxes {} (Cursor.ofBytes data) := by
  obtain ⟨rest, rfl⟩ := signed
  let input := Cursor.ofBytes (Format.jp2Signature ++ rest)
  have start : (0 : Nat) + 12 ≤ Read.maxPosition := by decide
  have twelve : Format.jp2Signature.length = 12 := rfl
  have taken : Read.field 12 (input.withMarks [0]) =
      .ok Format.jp2Signature ((input.withMarks [0]).forward 12) :=
    Reads.field twelve (input.withMarks [0]) rest rfl start
  have marked : (Read.mark : Read MetadataError Unit) input = .ok () (input.withMarks [0]) := rfl
  have again : Read.reset ((input.withMarks [0]).forward 12) = .ok () input := rfl
  show read input = walkBoxes {} input
  simp only [read, bind, EStateM.bind, marked, Reads.lift_apply, taken, again]
  rfl

/-- A signed stream is read to its end without the codestream exactly if it is tiled by
boxes that pass. They end with the stream, or the last one is passed over and declares a
length past the end. A box past the end that is kept, or begins with an identifier that
is cut short, makes the read fail. -/
theorem read_boxes_iff {data : Bytes} (signed : Format.jp2Signature <+: data) :
    (∀ last, (∃ record, read.onBytes data = (.ok record, last)) ∧ ¬ ReachesCodestream data 0 ↔
      ∃ boxes, Tiled data 0 boxes last ∧ (∀ box ∈ boxes, box.Passes data) ∧
        (last = data.length ∨
          ∃ box, boxes.getLast? = some box ∧ ¬ box.IsKept data ∧ data.length < box.stop)) ∧
    ∀ boxes stop box, Tiled data 0 boxes stop → box ∈ boxes → data.length < box.stop →
      box.IsKept data ∨ data.length < box.body → ∃ failure, (read.onBytes data).1 = .error failure := by
  have unended (last : Nat) :
      (∃ record, read.onBytes data = (.ok record, last)) ∧ ¬ ReachesCodestream data 0 ↔
        ∃ boxes, Tiled data 0 boxes last ∧ data.length ≤ last ∧ ∀ box ∈ boxes, box.Passes data := by
    simp only [Read.onBytes_ok_iff, read_signed signed]
    exact walkBoxes_ok_iff
  have some : 0 < data.length := Nat.lt_of_lt_of_le (by decide) signed.length_le
  refine ⟨fun last => ?_, fun boxes stop box tiled among past bad => ?_⟩
  · rw [unended]
    constructor
    · rintro ⟨boxes, tiled, past, passes⟩
      refine ⟨boxes, tiled, passes, ?_⟩
      obtain ⟨box, ends, rfl⟩ := tiled.last (by omega)
      refine (Nat.eq_or_lt_of_le past).imp Eq.symm fun beyond => ⟨box, ends, fun kept => ?_, beyond⟩
      have there := (passes box (List.mem_of_getLast? ends)).kept kept
      omega
    · rintro ⟨boxes, tiled, passes, rfl | ⟨box, ends, -, beyond⟩⟩
      · exact ⟨boxes, tiled, Nat.le_refl _, passes⟩
      · obtain ⟨-, rfl⟩ := tiled.overrunning (List.mem_of_getLast? ends) (Nat.le_of_lt beyond)
        exact ⟨boxes, tiled, Nat.le_of_lt beyond, passes⟩
  · obtain ⟨-, rfl⟩ := tiled.overrunning among (Nat.le_of_lt past)
    cases result : read.onBytes data with
    | mk outcome last =>
      cases outcome with
      | error failure => exact ⟨failure, rfl⟩
      | ok record =>
        obtain ⟨others, again, also, passes⟩ :=
          (unended last).mp ⟨⟨record, result⟩, tiled.bare (Nat.le_of_lt past)⟩
        obtain rfl := tiled.unique (Nat.le_of_lt past) again also
        have fits := passes box among
        cases bad with
        | inl kept => exact absurd (fits.kept kept) (Nat.not_le_of_lt past)
        | inr cut => exact absurd fits.headed (Nat.not_le_of_lt cut)

/-- A box that is passed over and declares a terabyte. -/
def farReaching : Bytes :=
  Format.jp2Signature ++ [0, 0, 0, 1] ++ Bytes.ofText "free" ++ Bytes.toBigEndian 8 0x10000000000

theorem read_boxes_iff_far : Format.jp2Signature <+: farReaching ∧
    (∃ record, read.onBytes farReaching = (.ok record, 0x1000000000C)) ∧
    ¬ ReachesCodestream farReaching 0 := by
  have signed : Format.jp2Signature <+: farReaching := by decide
  let first : Box := ⟨[0x6A, 0x50, 0x20, 0x20], 8, 12⟩
  let last : Box := ⟨Bytes.ofText "free", 28, 0x1000000000C⟩
  have tiled : Tiled farReaching 0 [first, last] 0x1000000000C :=
    .cons (by decide) (by decide +kernel) (by decide)
      (.cons (by decide) (by decide +kernel) (by decide) .nil)
  have plain : last.type ≠ uuidType := by decide
  have passes : ∀ box ∈ [first, last], box.Passes farReaching := by
    simp only [List.forall_mem_cons, List.not_mem_nil, false_implies, implies_true, and_true]
    exact ⟨(Box.passes_plain (by decide) (by decide) (by decide)).mpr (by decide),
      (Box.passes_plain plain (by decide) (by decide)).mpr (by decide)⟩
  exact ⟨signed, ((read_boxes_iff signed).1 _).mpr
    ⟨_, tiled, passes, .inr ⟨last, rfl, fun kept => plain kept.1, by decide⟩⟩⟩

/-- A box of 32 bytes of which only the header is there. -/
def cutShort : Bytes := Format.jp2Signature ++ [0, 0, 0, 32] ++ Bytes.ofText "free"

/-- No codestream has been reached, and the boxes stop past the end. -/
theorem read_cutShort : Format.jp2Signature <+: cutShort ∧ cutShort.length = 20 ∧
    boxAt? cutShort 12 = some ⟨Bytes.ofText "free", 20, 44⟩ ∧
    read.onBytes cutShort = (.ok {}, 44) ∧ ¬ ReachesCodestream cutShort 0 := by
  have tiled : Tiled cutShort 0 [⟨[0x6A, 0x50, 0x20, 0x20], 8, 12⟩, ⟨Bytes.ofText "free", 20, 44⟩] 44 :=
    .cons (by decide) (by decide +kernel) (by decide)
      (.cons (by decide) (by decide +kernel) (by decide) .nil)
  exact ⟨by decide, rfl, by decide +kernel, rfl, tiled.bare (by decide)⟩

end ImageDerivative.Jp2
