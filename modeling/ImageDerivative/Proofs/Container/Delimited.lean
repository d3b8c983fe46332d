import ImageDerivative.Container.Jpeg
import ImageDerivative.Proofs.Container.GifSettled
import ImageDerivative.Proofs.Container.Jp2Wrapping
import ImageDerivative.Proofs.Container.JpegStream

/-! Containers that say themselves where they end. The readers stop inside the data, a part
that ends before that place is found to be cut short, and whatever stands behind it is left
alone. A GIF stream that declares a color table is walked twice where the first walk runs
off the end, and so may be read differently when more follows; others are not, because
their second walk would begin where the first did. -/
namespace ImageDerivative

open Read (Settled Advances EndsInside Delimits)

namespace Jpeg

theorem markerStep_advances : Advances MetadataError.isTruncation (markerStep ()) :=
  Advances.byte.lift.bind fun _ => .pure _

theorem nextMarker_advances : Advances MetadataError.isTruncation nextMarker := by
  refine Advances.byte.lift.bind fun lead => ?_
  split
  · exact .walk (fun _ => markerStep_advances) _ _
  · exact .throw _

theorem nextMarker_inside : EndsInside nextMarker := by
  refine .bind fun lead => ?_
  split
  · exact .walk EndsInside.byte.lift (fun _ _ => .pure _) _ _
  · intro c code d ran
    cases ran

theorem segmentLength_settled : Settled MetadataError.isTruncation segmentLength := by
  refine .bind (.lift (.bigEndian 2)) fun length => ?_
  split
  · exact .throw _
  · exact .pure _

theorem readSegment_settled : Settled MetadataError.isTruncation readSegment :=
  segmentLength_settled.bind fun length => .lift (.run length)

theorem skipSegment_settled : Settled MetadataError.isTruncation skipSegment :=
  segmentLength_settled.bind fun length => .lift (.skip length)

theorem walkSegment_advances (p : Progress) :
    Advances MetadataError.isTruncation (walkSegment p) := by
  refine nextMarker_advances.bind fun code => ?_
  have kept (f : Bytes → Progress ⊕ Progress) :
      Settled MetadataError.isTruncation (do return f (← readSegment)) :=
    readSegment_settled.bind fun _ => .pure _
  split
  · exact .pure _
  · exact .pure _
  · refine readSegment_settled.bind fun segment => ?_
    split
    · exact .pure _
    · exact .throw _
  · exact kept _
  · exact kept _
  · exact kept _
  · exact kept _
  · exact skipSegment_settled.bind fun _ => .pure _

theorem read_settled : Settled MetadataError.isTruncation read := by
  refine .bind (.lift (.field 2)) fun start => ?_
  split
  · exact .bind (.walk walkSegment_advances _ _) fun p => .pure _
  · exact .throw _

theorem read_inside : EndsInside read := by
  refine .bind fun start => ?_
  split
  · refine (EndsInside.walk nextMarker_inside (fun p code => ?_) _ _).map _
    split
    · exact .pure _
    · exact .pure _
    · refine .goesOn (.bind fun segment => ?_)
      split
      · exact .inl _
      · exact .throw _
    · exact .goesOn (.bind fun _ => .inl _)
    · exact .goesOn (.bind fun _ => .inl _)
    · exact .goesOn (.bind fun _ => .inl _)
    · exact .goesOn (.bind fun _ => .inl _)
    · exact .goesOn (.bind fun _ => .inl _)
  · intro c record d ran
    cases ran

end Jpeg

namespace Jp2

theorem segmentLength_settled : Settled MetadataError.isTruncation segmentLength := by
  refine .bind (.lift (.bigEndian 2)) fun length => ?_
  split
  · exact .throw _
  · exact .pure _

theorem readSegment_settled : Settled MetadataError.isTruncation readSegment :=
  segmentLength_settled.bind fun length => .lift (.run length)

theorem walkMarker_advances (record : Record) :
    Advances MetadataError.isTruncation (walkMarker record) := by
  refine (Advances.field (by decide)).lift.bind fun marker => ?_
  split
  · split
    · exact .pure _
    · refine readSegment_settled.bind fun data => ?_
      split
      · exact .throw _
      · exact .pure _
    · refine readSegment_settled.bind fun data => ?_
      split
      · exact .pure _
      · exact .throw _
    · refine readSegment_settled.bind fun data => ?_
      split
      · exact .pure _
      · exact .throw _
    · exact .pure _
    · exact .pure _
    · exact .pure _
    · exact segmentLength_settled.bind fun length => .bind (.lift (.skip length)) fun _ => .pure _
  · exact .pure _

theorem readCodestream_settled (record : Record) :
    Settled MetadataError.isTruncation (readCodestream record) :=
  .walk walkMarker_advances _ _

theorem readCodestream_inside (record : Record) : EndsInside (readCodestream record) := by
  refine .walk (EndsInside.field (by decide)).lift (fun record marker => ?_) _ _
  split
  · split
    · exact .pure _
    · refine .goesOn (.bind fun data => ?_)
      split
      · exact .throw _
      · exact .inl _
    · refine .goesOn (.bind fun data => ?_)
      split
      · exact .inl _
      · exact .throw _
    · refine .goesOn (.bind fun data => ?_)
      split
      · exact .inl _
      · exact .throw _
    · exact .pure _
    · exact .pure _
    · exact .pure _
    · exact .goesOn (.bind fun length => .bind fun _ => .inl _)
  · exact .pure _

theorem readSegment_ok {bytes : Bytes} {c d : Cursor} (ran : readSegment c = .ok bytes d) :
    c.pos + bytes.length ≤ d.pos := by
  obtain ⟨count, m, counted, taken⟩ := state_bind_eq_ok.mp ran
  have onward := (segmentLength_settled c counted).1.onward
  obtain ⟨inside, rfl, rfl⟩ := Read.run_ok_iff.mp (Read.lift_ok taken)
  rw [List.length_take]
  simp only [Cursor.forward]
  omega

/-- A main header that is read is longer than the bytes that tell a codestream from boxes. -/
theorem readCodestream_far {data : Bytes} (starts : Format.codestreamSignature <+: data)
    {record : Record} {e : Cursor} (ran : readCodestream {} (.ofBytes data) = .ok record e) :
    minSizeLength ≤ e.pos := by
  obtain ⟨rest, rfl⟩ := starts
  let input := Cursor.ofBytes (Format.codestreamSignature ++ rest)
  have near (n : Nat) (few : n ≤ 4) : n ≤ Read.maxPosition := Nat.le_trans few (by decide)
  have start : walkMarker {} input = .ok (.inl {}) (input.forward 2) :=
    walkMarker_start {} input ([0xFF, 0x51] ++ rest) rfl (near 2 (by decide))
  have size : (liftM (Read.field 2) : Read MetadataError Bytes) (input.forward 2) =
      .ok [0xFF, 0x51] ((input.forward 2).forward 2) :=
    (Reads.field rfl).lift (input.forward 2) rest rfl (near 4 (Nat.le_refl _))
  have bound : input.remaining + 1 = 1 + (rest.length + 3 + 1) := by
    show (Format.codestreamSignature ++ rest).length - 0 + 1 = _
    simp only [Format.codestreamSignature, List.length_append, List.length_cons, List.length_nil]
    omega
  have repeated : repeatUpTo (throw (.io .stalled)) walkMarker (input.remaining + 1) {} input =
      .ok record e := ran
  rw [bound, (Turns.one start).repeatUpTo_eq] at repeated
  obtain ⟨next, m, turned, going⟩ := state_bind_eq_ok.mp repeated
  obtain ⟨marker, n, marked, turned⟩ := state_bind_eq_ok.mp turned
  obtain ⟨rfl, rfl⟩ : marker = [0xFF, 0x51] ∧ n = (input.forward 2).forward 2 := by
    rw [size] at marked
    cases marked
    exact ⟨rfl, rfl⟩
  obtain ⟨segment, k, taken, turned⟩ := state_bind_eq_ok.mp turned
  have far := readSegment_ok taken
  have settled := Settled.repeatUpTo (.throw (.io .stalled)) fun record =>
    (walkMarker_advances record).settled
  split at turned
  · cases turned
  · next long =>
    cases turned
    have onward := (settled (rest.length + 3) _ _ going).1.onward
    omega

/-- What is too short to be told from boxes is cut short. -/
theorem read_short {data : Bytes} (short : data.length < 12) :
    read.onBytes data = (.error (.io .endOfField), data.length) := by
  let input := Cursor.ofBytes data
  have marked : (Read.mark : Read MetadataError Unit) input = .ok () (input.withMarks [0]) := rfl
  have failed : Read.field 12 (input.withMarks [0]) =
      .error .endOfField (input.withMarks [0]).toEnd := by
    rw [Read.field_apply, if_neg]
    show ¬ 12 ≤ data.length - 0
    omega
  simp only [Read.onBytes, read, bind, EStateM.bind, Reads.lift_apply]
  rw [marked]
  simp only [failed]
  rfl

theorem onBytes_bare {data : Bytes} (starts : Format.codestreamSignature <+: data)
    (long : 12 ≤ data.length) : read.onBytes data = (readCodestream {}).onBytes data := by
  rw [Read.onBytes, read_bare starts long, Read.onBytes]

theorem delimits_of_starts {data : Bytes} (starts : Format.codestreamSignature <+: data) :
    Delimits read data := by
  intro record stop result
  have long : 12 ≤ data.length := by
    refine Nat.le_of_not_lt fun short => ?_
    rw [read_short short] at result
    cases result
  rw [onBytes_bare starts long] at result
  obtain ⟨e, ran, rfl⟩ := Read.onBytes_ok_iff.mp result
  have far : 12 ≤ e.pos := Nat.le_trans (by decide) (readCodestream_far starts ran)
  obtain ⟨inside, cut, extended⟩ :=
    (readCodestream_settled {} _).delimits (readCodestream_inside {}) record e.pos result
  refine ⟨inside, fun k short => ?_, fun tail => ?_⟩
  · by_cases enough : 12 ≤ k
    · have part : Format.codestreamSignature <+: data.take k :=
        List.prefix_take_iff.mpr ⟨starts, Nat.le_trans (by decide) enough⟩
      rw [onBytes_bare part (by rw [List.length_take]; omega)]
      exact cut k short
    · exact ⟨_, _, read_short (by rw [List.length_take]; omega), rfl⟩
  · have kept : Format.codestreamSignature <+: data.take e.pos ++ tail :=
      (List.prefix_take_iff.mpr ⟨starts, Nat.le_trans (by decide) far⟩).trans
        (List.prefix_append _ _)
    rw [onBytes_bare kept (by rw [List.length_append, List.length_take]; omega)]
    exact extended tail

end Jp2

/-- A JPEG stream, a GIF stream without a color table and a bare codestream are read up to
a place inside them that is theirs: ended before it they are found cut short, and whatever
follows changes nothing. -/
theorem read_delimits (data : Bytes) :
    Delimits Jpeg.read data ∧
    (data.getD 10 0 &&& 1 = 0 → Delimits Gif.read data) ∧
    (Format.codestreamSignature <+: data → Delimits Jp2.read data) :=
  ⟨(Jpeg.read_settled _).delimits Jpeg.read_inside,
    fun clear => (Gif.read_settledAt clear).delimits Gif.read_inside,
    Jp2.delimits_of_starts⟩

def blankGif : Bytes := Bytes.ofText "GIF89a" ++ [7, 0, 5, 0, 0x70, 0, 0, 0x3B]

def blankCodestream : Bytes :=
  Format.codestreamSignature ++ [0, 39] ++ List.replicate 37 1 ++ [0xFF, 0xD9]

theorem read_delimits_blank :
    (blankGif.getD 10 0 &&& 1 = 0 ∧
      (∀ k < 14, ∃ failure last, Gif.read.onBytes (blankGif.take k) = (.error failure, last) ∧
        failure.isTruncation = true) ∧
      ∀ tail, Gif.read.onBytes (blankGif ++ tail) = (.ok ⟨7, 5, none, 1, 0, none⟩, 14)) ∧
    Format.codestreamSignature <+: blankCodestream ∧
      (∀ k < 45, ∃ failure last, Jp2.read.onBytes (blankCodestream.take k) = (.error failure, last) ∧
        failure.isTruncation = true) ∧
      ∀ tail, (Jp2.read.onBytes (blankCodestream ++ tail)).2 = 45 := by
  have clear : blankGif.getD 10 0 &&& 1 = 0 := by decide
  have starts : Format.codestreamSignature <+: blankCodestream := by decide
  have gif : Gif.read.onBytes blankGif = (.ok ⟨7, 5, none, 1, 0, none⟩, 14) := rfl
  obtain ⟨codestream, jp2⟩ : ∃ record, Jp2.read.onBytes blankCodestream = (.ok record, 45) :=
    ⟨_, rfl⟩
  obtain ⟨-, cutGif, longGif⟩ := (read_delimits blankGif).2.1 clear _ _ gif
  obtain ⟨-, cutJp2, longJp2⟩ := (read_delimits blankCodestream).2.2 starts _ _ jp2
  refine ⟨⟨clear, cutGif, longGif⟩, starts, cutJp2, fun tail => ?_⟩
  exact congrArg Prod.snd (longJp2 tail)

end ImageDerivative
