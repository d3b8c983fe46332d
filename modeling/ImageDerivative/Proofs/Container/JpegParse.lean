import ImageDerivative.Proofs.Container.JpegStream

/-! What has been read as a JPEG stream. Whatever bytes are accepted, up to where the walk
stops they are the written form of a stream, of one and no other, and the answer is what
this stream tells. -/
namespace ImageDerivative.Jpeg

variable {c d : Cursor}

/-- Behind the first 0xFF of a marker there may be more of them, and then comes its code. -/
theorem markerStep_ok {bound : Nat} {code : UInt8}
    (ran : repeatUpTo (throw (.io .stalled)) markerStep bound () c = .ok code d) :
    code ≠ 0xFF ∧ ∃ fill, c.Spans (List.replicate fill 0xFF ++ [code]) d := by
  induction bound generalizing c with
  | zero => cases ran
  | succ bound ih =>
    obtain ⟨turn, m, taken, rest⟩ := state_bind_eq_ok.mp ran
    obtain ⟨b, _, read, answered⟩ := state_bind_eq_ok.mp taken
    have here := Read.byte_spans (Read.lift_ok read)
    cases answered
    by_cases same : b = 0xFF
    · rw [if_pos same] at rest
      rw [same] at here
      obtain ⟨notFill, fill, spans⟩ := ih rest
      exact ⟨notFill, fill + 1, here.trans spans⟩
    · rw [if_neg same] at rest
      cases rest
      exact ⟨same, 0, here⟩

theorem nextMarker_ok {code : UInt8} (ran : nextMarker c = .ok code d) :
    code ≠ 0xFF ∧ ∃ fill, c.Spans (encodeMarker fill code) d := by
  obtain ⟨lead, m, read, rest⟩ := state_bind_eq_ok.mp ran
  have here := Read.byte_spans (Read.lift_ok read)
  split at rest
  · next same =>
    rw [same] at here
    obtain ⟨notFill, fill, spans⟩ := markerStep_ok rest
    exact ⟨notFill, fill, here.trans spans⟩
  · cases rest

theorem segmentLength_ok {n : Nat} (ran : segmentLength c = .ok n d) :
    n ≤ 65533 ∧ c.Spans (Bytes.toBigEndian 2 (n + 2)) d := by
  obtain ⟨length, m, taken, rest⟩ := state_bind_eq_ok.mp ran
  obtain ⟨bytes, _, read, answered⟩ := state_bind_eq_ok.mp (Read.lift_ok taken)
  obtain ⟨two, spans⟩ := Read.field_spans read
  cases answered
  have bound : Bytes.ofBigEndian bytes < 256 ^ 2 := two ▸ Bytes.ofBigEndian_lt bytes
  have again := Bytes.toBigEndian_ofBigEndian bytes
  rw [two] at again
  split at rest
  · cases rest
  · next long =>
    cases rest
    rw [Nat.sub_add_cancel (Nat.not_lt.mp long), again]
    exact ⟨by omega, spans⟩

theorem readSegment_ok {payload : Bytes} (ran : readSegment c = .ok payload d) :
    payload.length ≤ 65533 ∧
      c.Spans (Bytes.toBigEndian 2 (payload.length + 2) ++ payload) d := by
  obtain ⟨n, m, counted, taken⟩ := state_bind_eq_ok.mp ran
  obtain ⟨short, length⟩ := segmentLength_ok counted
  obtain ⟨whole, contents⟩ := Read.run_spans (Read.lift_ok taken)
  rw [whole]
  exact ⟨short, length.trans contents⟩

/-- A segment that is passed over is there if anything is behind it. -/
theorem skipSegment_ok (ran : skipSegment c = .ok () d) (ahead : d.rest ≠ []) :
    ∃ payload : Bytes, payload.length ≤ 65533 ∧
      c.Spans (Bytes.toBigEndian 2 (payload.length + 2) ++ payload) d := by
  obtain ⟨n, m, counted, passed⟩ := state_bind_eq_ok.mp ran
  obtain ⟨short, length⟩ := segmentLength_ok counted
  obtain rfl := Read.skip_ok (Read.lift_ok passed)
  have contents := Cursor.Spans.forward ahead
  have whole : (m.rest.take n).length = n := by
    have moved := congrArg Cursor.pos contents.moved
    simp only [Cursor.forward] at moved
    omega
  refine ⟨m.rest.take n, ?_, ?_⟩
  · rwa [whole]
  · rw [whole]
    exact length.trans contents

theorem Progress.addFrame?_sized {p next : Progress} {payload : Bytes}
    (added : p.addFrame? payload = some next) : 5 ≤ payload.length := by
  simp only [addFrame?, Option.bind_eq_bind, Option.bind_eq_some_iff] at added
  obtain ⟨height, _, width, found, _⟩ := added
  exact ((Bytes.slice?_eq_some_iff (by decide)).mp found).1

/-- A marker of a segment and what stands behind it are an item. -/
theorem exists_segment {m : Cursor} {fill : Nat} {code : UInt8} {kind : Marker} {payload : Bytes}
    (notFill : code ≠ 0xFF) (mark : Marker.ofCode code = kind) (notFinal : kind ≠ .final)
    (notStandalone : kind ≠ .standalone) (sized : kind = .frame → 5 ≤ payload.length)
    (marked : c.Spans (encodeMarker fill code) m)
    (taken : payload.length ≤ 65533 ∧
      m.Spans (Bytes.toBigEndian 2 (payload.length + 2) ++ payload) d) :
    ∃ item : Item, c.Spans (item.encode fill) d ∧
      ∀ p : Progress, p.add item = p.addSegment code payload := by
  subst mark
  let known : SegmentCode := {
    value := code
    followed := fun among => notStandalone ((ofCode_standalone_iff code).mpr among)
    inside := ⟨fun scan => notFinal ((ofCode_final_iff code).mpr (.inl scan)),
      fun ending => notFinal ((ofCode_final_iff code).mpr (.inr ending))⟩
    notFill := notFill }
  refine ⟨.segment known ⟨payload, taken.1, fun among => sized ((ofCode_frame_iff code).mpr among)⟩,
    ?_, fun p => rfl⟩
  rw [Item.encode, List.append_assoc]
  exact marked.trans taken.2

/-- A turn that ends the walk has come to a closing marker. -/
theorem walkSegment_last {p result : Progress} (ran : walkSegment p c = .ok (.inr result) d) :
    result = p ∧ ∃ fill closing, c.Spans (encodeMarker fill (Closing.code closing)) d := by
  obtain ⟨code, m, marked, rest⟩ := state_bind_eq_ok.mp ran
  obtain ⟨-, fill, spans⟩ := nextMarker_ok marked
  cases mark : Marker.ofCode code with
  | final =>
    rw [mark] at rest
    cases rest
    rcases (ofCode_final_iff code).mp mark with rfl | rfl
    · exact ⟨rfl, fill, .scan, spans⟩
    · exact ⟨rfl, fill, .ending, spans⟩
  | standalone =>
    rw [mark] at rest
    cases rest
  | frame =>
    rw [mark] at rest
    obtain ⟨payload, n, _, rest⟩ := state_bind_eq_ok.mp rest
    cases added : p.addFrame? payload with
    | none =>
      rw [added] at rest
      cases rest
    | some next =>
      rw [added] at rest
      cases rest
  | app1 | app2 | app13 | app14 | other =>
    rw [mark] at rest
    obtain ⟨_, n, _, rest⟩ := state_bind_eq_ok.mp rest
    cases rest

/-- A turn that goes on, and has not passed the end, has taken an item. -/
theorem walkSegment_next {p next : Progress} (ran : walkSegment p c = .ok (.inl next) d)
    (ahead : d.rest ≠ []) :
    ∃ fill item, next = p.add item ∧ c.Spans (Item.encode fill item) d := by
  obtain ⟨code, m, marked, rest⟩ := state_bind_eq_ok.mp ran
  obtain ⟨notFill, fill, spans⟩ := nextMarker_ok marked
  cases mark : Marker.ofCode code with
  | final =>
    rw [mark] at rest
    cases rest
  | standalone =>
    rw [mark] at rest
    cases rest
    exact ⟨fill, .standalone code ((ofCode_standalone_iff code).mp mark), rfl, spans⟩
  | frame =>
    rw [mark] at rest
    obtain ⟨payload, n, taken, rest⟩ := state_bind_eq_ok.mp rest
    cases added : p.addFrame? payload with
    | none =>
      rw [added] at rest
      cases rest
    | some q =>
      rw [added] at rest
      cases rest
      obtain ⟨item, found, told⟩ := exists_segment notFill mark (by decide) (by decide)
        (fun _ => Progress.addFrame?_sized added) spans (readSegment_ok taken)
      refine ⟨fill, item, ?_, found⟩
      rw [told, Progress.addSegment, mark]
      exact (congrArg (Option.getD · p) added).symm
  | app1 | app2 | app13 | app14 =>
    rw [mark] at rest
    obtain ⟨payload, n, taken, rest⟩ := state_bind_eq_ok.mp rest
    cases rest
    obtain ⟨item, found, told⟩ := exists_segment notFill mark (by decide) (by decide)
      (fun frame => absurd frame (by decide)) spans (readSegment_ok taken)
    refine ⟨fill, item, ?_, found⟩
    rw [told, Progress.addSegment, mark]
  | other =>
    rw [mark] at rest
    obtain ⟨_, n, passed, rest⟩ := state_bind_eq_ok.mp rest
    cases rest
    obtain ⟨payload, taken⟩ := skipSegment_ok passed ahead
    obtain ⟨item, found, told⟩ := exists_segment notFill mark (by decide) (by decide)
      (fun frame => absurd frame (by decide)) spans taken
    refine ⟨fill, item, ?_, found⟩
    rw [told, Progress.addSegment, mark]

/-- A walk that ends has taken items one by one, up to a closing marker. -/
theorem walk_ok {bound : Nat} {p result : Progress}
    (ran : repeatUpTo (throw (.io .stalled)) walkSegment bound p c = .ok result d) :
    ∃ (items : List (Nat × Item)) (fill : Nat) (closing : Closing),
      result = (items.map Prod.snd).foldl Progress.add p ∧
      c.Spans ((items.flatMap fun (fill, item) => item.encode fill) ++
        encodeMarker fill closing.code) d := by
  induction bound generalizing p c with
  | zero => cases ran
  | succ bound ih =>
    obtain ⟨turn, m, taken, rest⟩ := state_bind_eq_ok.mp ran
    cases turn with
    | inr last =>
      cases rest
      obtain ⟨rfl, fill, closing, spans⟩ := walkSegment_last taken
      exact ⟨[], fill, closing, rfl, spans⟩
    | inl next =>
      obtain ⟨items, last, closing, told, spans⟩ := ih rest
      have marked : encodeMarker last closing.code ≠ [] := List.cons_ne_nil _ _
      have ahead := spans.ahead (List.append_ne_nil_of_right_ne_nil _ marked)
      obtain ⟨fill, item, rfl, here⟩ := walkSegment_next taken ahead
      refine ⟨(fill, item) :: items, last, closing, told, ?_⟩
      rw [List.flatMap_cons, List.append_assoc]
      exact here.trans spans

/-- Whatever is read as a stream is a stream as it is written, and is understood as such. -/
theorem read_ok {data : Bytes} {record : Record} {stop : Nat}
    (result : read.onBytes data = (.ok record, stop)) :
    ∃ stream : Stream, stream.encode = data.take stop ∧ stream.record = record := by
  obtain ⟨d, ran, rfl⟩ := Read.onBytes_ok_iff.mp result
  obtain ⟨start, m, taken, rest⟩ := state_bind_eq_ok.mp ran
  obtain ⟨-, signature⟩ := Read.field_spans (Read.lift_ok taken)
  split at rest
  case isFalse => cases rest
  next signed =>
  obtain ⟨p, _, walked, answered⟩ := state_bind_eq_ok.mp rest
  cases answered
  obtain ⟨items, fill, closing, rfl, spans⟩ := walk_ok walked
  have all := signature.trans spans
  rw [signed, ← List.append_assoc] at all
  let stream : Stream := ⟨items, fill, closing⟩
  have starts : data = stream.encode ++ d.rest := all.starts
  have place : d.pos = stream.encode.length := by
    rw [all.moved]
    exact Nat.zero_add _
  refine ⟨stream, ?_, ?_⟩
  · rw [place, starts, List.take_left]
  · rw [Stream.record, ← foldl_add]

theorem encodeMarker_append_inj {fill other : Nat} {code also : UInt8} {xs ys : Bytes}
    (notFill : code ≠ 0xFF) (alsoNot : also ≠ 0xFF)
    (same : encodeMarker fill code ++ xs = encodeMarker other also ++ ys) :
    fill = other ∧ code = also ∧ xs = ys := by
  induction fill generalizing other with
  | zero =>
    cases other with
    | zero =>
      cases same
      exact ⟨rfl, rfl, rfl⟩
    | succ other => exact absurd (List.cons.inj (List.cons.inj same).2).1 notFill
  | succ fill ih =>
    cases other with
    | zero => exact absurd (List.cons.inj (List.cons.inj same).2).1.symm alsoNot
    | succ other =>
      obtain ⟨rfl, rest⟩ := ih (List.cons.inj same).2
      exact ⟨rfl, rest⟩

namespace Item

def code : Item → UInt8
  | standalone code _ => code
  | segment code _ => code.value

def contents : Item → Bytes
  | standalone _ _ => []
  | segment _ payload => Bytes.toBigEndian 2 (payload.bytes.length + 2) ++ payload.bytes

theorem encode_eq (fill : Nat) (item : Item) :
    item.encode fill = encodeMarker fill item.code ++ item.contents := by
  cases item with
  | standalone code known => exact (List.append_nil _).symm
  | segment code payload => exact List.append_assoc _ _ _

theorem code_ne_fill (item : Item) : item.code ≠ 0xFF := by
  cases item with
  | standalone code known =>
    rintro rfl
    exact absurd known (by decide)
  | segment code payload => exact code.notFill

theorem code_ne_closing (item : Item) (closing : Closing) : item.code ≠ closing.code := by
  intro same
  have final : Marker.ofCode item.code = .final := same ▸ ofCode_closing closing
  cases item with
  | standalone code known =>
    have standalone : Marker.ofCode code = .standalone := (ofCode_standalone_iff code).mpr known
    exact absurd (final.symm.trans standalone) nofun
  | segment code payload => exact code.not_final final

theorem encode_append_inj {fill other : Nat} {item also : Item} {xs ys : Bytes}
    (same : item.encode fill ++ xs = also.encode other ++ ys) :
    fill = other ∧ item = also ∧ xs = ys := by
  rw [encode_eq, encode_eq, List.append_assoc, List.append_assoc] at same
  obtain ⟨rfl, coded, behind⟩ := encodeMarker_append_inj item.code_ne_fill also.code_ne_fill same
  refine ⟨rfl, ?_⟩
  cases item with
  | standalone code known =>
    cases also with
    | standalone other known =>
      cases coded
      exact ⟨rfl, behind⟩
    | segment other payload =>
      cases coded
      exact absurd known other.followed
  | segment code payload =>
    cases also with
    | standalone other known =>
      cases coded
      exact absurd known code.followed
    | segment other second =>
      obtain ⟨value, followed, inside, notFill⟩ := code
      obtain ⟨value', followed', inside', notFill'⟩ := other
      cases coded
      obtain ⟨bytes, short, sized⟩ := payload
      obtain ⟨bytes', short', sized'⟩ := second
      simp only [contents, List.append_assoc] at behind
      have two (n : Nat) : (Bytes.toBigEndian 2 n).length = 2 := Bytes.length_toBigEndian 2 n
      obtain ⟨counted, rest⟩ := List.append_inj behind ((two _).trans (two _).symm)
      have length : bytes.length + 2 = bytes'.length + 2 := by
        have read := congrArg Bytes.ofBigEndian counted
        rwa [Bytes.ofBigEndian_toBigEndian (by omega), Bytes.ofBigEndian_toBigEndian (by omega)]
          at read
      obtain ⟨rfl, rfl⟩ := List.append_inj rest (Nat.add_right_cancel length)
      exact ⟨rfl, rfl⟩

end Item

namespace Closing

theorem code_ne_fill (closing : Closing) : closing.code ≠ 0xFF := by
  cases closing with
  | scan => decide
  | ending => decide

theorem code_inj {closing other : Closing} (same : closing.code = other.code) : closing = other := by
  cases closing with
  | scan => cases other with
    | scan => rfl
    | ending => exact absurd same (by decide)
  | ending => cases other with
    | scan => exact absurd same (by decide)
    | ending => rfl

end Closing

theorem Item.encode_ne_closing {fill other : Nat} {item : Item} {closing : Closing} {xs ys : Bytes} :
    item.encode fill ++ xs ≠ encodeMarker other closing.code ++ ys := by
  intro same
  rw [encode_eq, List.append_assoc] at same
  obtain ⟨-, coded, -⟩ := encodeMarker_append_inj item.code_ne_fill closing.code_ne_fill same
  exact item.code_ne_closing closing coded

theorem Stream.encode_append_inj {stream other : Stream} {xs ys : Bytes}
    (same : stream.encode ++ xs = other.encode ++ ys) : stream = other ∧ xs = ys := by
  obtain ⟨items, fill, closing⟩ := stream
  obtain ⟨others, otherFill, otherClosing⟩ := other
  simp only [encode, List.append_assoc] at same
  replace same := List.append_cancel_left same
  induction items generalizing others with
  | nil =>
    cases others with
    | nil =>
      obtain ⟨rfl, coded, rfl⟩ :=
        encodeMarker_append_inj closing.code_ne_fill otherClosing.code_ne_fill same
      obtain rfl := Closing.code_inj coded
      exact ⟨rfl, rfl⟩
    | cons first others =>
      rw [List.flatMap_cons, List.append_assoc] at same
      exact absurd same.symm Item.encode_ne_closing
  | cons first items ih =>
    rw [List.flatMap_cons, List.append_assoc] at same
    cases others with
    | nil => exact absurd same Item.encode_ne_closing
    | cons second others =>
      rw [List.flatMap_cons, List.append_assoc] at same
      obtain ⟨filled, told, rest⟩ := Item.encode_append_inj same
      obtain ⟨again, behind⟩ := ih others rest
      cases again
      exact ⟨by rw [Prod.ext filled told], behind⟩

theorem Stream.encode_injective : Function.Injective Stream.encode := by
  intro stream other same
  have again : stream.encode ++ [] = other.encode ++ [] := congrArg (· ++ []) same
  exact (Stream.encode_append_inj again).1

/-- The record of what is read is that of its written form. -/
theorem read_record {data : Bytes} {record : Record} {stop : Nat}
    (result : read.onBytes data = (.ok record, stop)) {stream : Stream}
    (written : stream.encode = data.take stop) : record = stream.record := by
  obtain ⟨other, same, rfl⟩ := read_ok result
  rw [Stream.encode_injective (same.trans written.symm)]

end ImageDerivative.Jpeg
