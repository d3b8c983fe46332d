import ImageDerivative.Proofs.Container.JpegFormat
import ImageDerivative.Proofs.Container.Reads

/-! Reading a well-formed JPEG stream. Every turn of the walk uses up one marker with its
segment, so that no byte of a payload is ever taken for a marker. -/
namespace ImageDerivative.Jpeg

theorem ofCode_final_iff : ∀ code, Marker.ofCode code = .final ↔ code = 0xDA ∨ code = 0xD9 := by
  decide +kernel

theorem ofCode_standalone_iff : ∀ code,
    Marker.ofCode code = .standalone ↔ code ∈ standaloneCodes := by
  decide +kernel

theorem ofCode_frame_iff : ∀ code, Marker.ofCode code = .frame ↔ code ∈ frameCodes := by
  decide +kernel

theorem ofCode_app1_iff : ∀ code, Marker.ofCode code = .app1 ↔ code ∈ [0xE1] := by
  decide +kernel

theorem ofCode_app2_iff : ∀ code, Marker.ofCode code = .app2 ↔ code ∈ [0xE2] := by
  decide +kernel

theorem ofCode_app13_iff : ∀ code, Marker.ofCode code = .app13 ↔ code ∈ [0xED] := by
  decide +kernel

theorem ofCode_app14_iff : ∀ code, Marker.ofCode code = .app14 ↔ code ∈ [0xEE] := by
  decide +kernel

theorem ofCode_closing (closing : Closing) : Marker.ofCode closing.code = .final := by
  cases closing with
  | scan => rfl
  | ending => rfl

namespace SegmentCode

theorem not_final (code : SegmentCode) : Marker.ofCode code.value ≠ .final := by
  intro final
  cases (ofCode_final_iff _).mp final with
  | inl scan => exact code.inside.1 scan
  | inr ending => exact code.inside.2 ending

theorem not_standalone (code : SegmentCode) : Marker.ofCode code.value ≠ .standalone :=
  fun standalone => code.followed ((ofCode_standalone_iff _).mp standalone)

end SegmentCode

def Progress.addSegment (p : Progress) (code : UInt8) (payload : Bytes) : Progress :=
  match Marker.ofCode code with
  | .frame => (p.addFrame? payload).getD p
  | .app1 => p.addApp1 payload
  | .app2 => p.addApp2 payload
  | .app13 => p.addApp13 payload
  | .app14 => p.addApp14 payload
  | .final | .standalone | .other => p

def Progress.add (p : Progress) : Item → Progress
  | .standalone _ _ => p
  | .segment code payload => p.addSegment code.value payload.bytes

theorem Progress.addFrame?_eq (p : Progress) {payload : Bytes} (sized : 5 ≤ payload.length) :
    p.addFrame? payload = some { p with record := { p.record with
      height := Bytes.ofBigEndian ((payload.drop 1).take 2)
      width := Bytes.ofBigEndian ((payload.drop 3).take 2) } } := by
  have height : Bytes.slice? payload 1 2 = some ((payload.drop 1).take 2) :=
    (Bytes.slice?_eq_some_iff (by decide)).mpr ⟨by omega, rfl⟩
  have width : Bytes.slice? payload 3 2 = some ((payload.drop 3).take 2) :=
    (Bytes.slice?_eq_some_iff (by decide)).mpr ⟨by omega, rfl⟩
  rw [addFrame?, height, width]
  rfl

/-- One byte behind the first 0xFF of a marker. -/
def markerStep : Unit → Read MetadataError (Unit ⊕ UInt8) := fun () => do
  let code ← Read.byte
  return if code = 0xFF then .inl () else .inr code

theorem nextMarker_reads (fill : Nat) {code : UInt8} (notFill : code ≠ 0xFF) :
    Reads nextMarker (encodeMarker fill code) code := by
  have filling : Walks markerStep (List.replicate fill 0xFF) () () := by
    induction fill with
    | zero => exact .none ()
    | succ fill ih => exact .cons ((Reads.byte 0xFF).lift.map fun code => _) ih
  have coded : Reads (markerStep ()) [code] (.inr code) := by
    have read := (Reads.byte code).lift.map fun code =>
      if code = 0xFF then (Sum.inl () : Unit ⊕ UInt8) else .inr code
    rwa [if_neg notFill] at read
  refine (Reads.byte 0xFF).lift.bind ?_
  exact filling.finish coded

theorem segmentLength_reads {n : Nat} (short : n ≤ 65533) :
    Reads segmentLength (Bytes.toBigEndian 2 (n + 2)) n := by
  have fits : n + 2 < 256 ^ 2 := by omega
  refine (Reads.number fits).lift.bind_nil ?_
  rw [if_neg (by omega)]
  exact .pure _

theorem readSegment_reads {payload : Bytes} (short : payload.length ≤ 65533) :
    Reads readSegment (Bytes.toBigEndian 2 (payload.length + 2) ++ payload) payload :=
  (segmentLength_reads short).bind (Reads.run payload).lift

theorem skipSegment_reads {payload : Bytes} (short : payload.length ≤ 65533) :
    Reads skipSegment (Bytes.toBigEndian 2 (payload.length + 2) ++ payload) () :=
  (segmentLength_reads short).bind (Reads.skip rfl (Nat.le_trans short (by decide))).lift

theorem walkSegment_closing (fill : Nat) (closing : Closing) (p : Progress) :
    Reads (walkSegment p) (encodeMarker fill closing.code) (.inr p) := by
  have notFill : closing.code ≠ 0xFF := by
    cases closing with
    | scan => decide
    | ending => decide
  refine (nextMarker_reads fill notFill).bind_nil ?_
  rw [ofCode_closing]
  exact .pure _

/-- A turn takes one item. -/
theorem walkSegment_item (fill : Nat) (item : Item) (p : Progress) :
    Reads (walkSegment p) (item.encode fill) (.inl (p.add item)) := by
  cases item with
  | standalone code known =>
    have notFill : code ≠ 0xFF := by
      rintro rfl
      exact absurd known (by decide)
    refine (nextMarker_reads fill notFill).bind_nil ?_
    rw [(ofCode_standalone_iff code).mpr known]
    exact .pure _
  | segment code payload =>
    rw [Item.encode, List.append_assoc]
    refine (nextMarker_reads fill code.notFill).bind ?_
    have taken := readSegment_reads payload.short
    rw [Progress.add, Progress.addSegment]
    cases mark : Marker.ofCode code.value with
    | final => exact absurd mark code.not_final
    | standalone => exact absurd mark code.not_standalone
    | frame =>
      have sized := payload.sized ((ofCode_frame_iff _).mp mark)
      refine taken.bind_nil ?_
      rw [p.addFrame?_eq sized]
      exact .pure _
    | app1 => exact taken.map _
    | app2 => exact taken.map _
    | app13 => exact taken.map _
    | app14 => exact taken.map _
    | other => exact (skipSegment_reads payload.short).map _

/-- An item that tells something of a kind replaces what was known. -/
def Progress.tell (p : Progress) (item : Item) : Progress where
  record := { p.record with
    width := (item.frame?.map (numberAt 3)).getD p.record.width
    height := (item.frame?.map (numberAt 1)).getD p.record.height
    exif := item.exif?.or p.record.exif
    iptc := item.iptc?.or p.record.iptc
    xmp := (item.xmp?.map Xmp.rdfOfBytes).getD p.record.xmp
    hasAdobeSegment := item.adobe?.isSome || p.record.hasAdobeSegment
    colorTransform := (item.adobe?.map ColorTransform.ofByte?).getD p.record.colorTransform }
  icc := p.icc ++ item.profile?.toList
  extended := p.extended ++ (item.extended?.map Prod.fst).toList
  extendedLength := max p.extendedLength ((item.extended?.map Prod.snd).getD 0)

theorem gathered_concat (items : List Item) (item : Item) :
    gathered (items ++ [item]) = (gathered items).tell item := by
  have joined {α β : Type} (first last : Option α) (f : α → Option β) :
      (first.or last).bind f = (first.map f).getD (last.bind f) := by
    cases first with
    | none => rfl
    | some _ => rfl
  have longest (start : Nat) (told : Option (Chunk × Nat)) :
      (told.toList.map Prod.snd).foldl max start = max start ((told.map Prod.snd).getD 0) := by
    cases told with
    | none => exact (Nat.max_zero start).symm
    | some _ => rfl
  simp only [gathered, Progress.tell, last?, filterMap_concat, getLast?_append_toList,
    List.map_append, List.foldl_append, Option.map_or, Option.getD_or, Option.isSome_or, joined, longest,
    Option.toList_map]

theorem Progress.addExtended_eq (p : Progress) {payload rest : Bytes}
    (starts : Bytes.after? extendedXmpHeader payload = some rest) :
    p.addExtended rest = { p with
      extended := p.extended ++ ((extendedChunk? payload).map Prod.fst).toList
      extendedLength := max p.extendedLength (((extendedChunk? payload).map Prod.snd).getD 0) } := by
  unfold Progress.addExtended extendedChunk?
  rw [starts]
  by_cases short : rest.length < 40
  · have full : ¬ 36 + 4 ≤ rest.length := by omega
    simp [short, full, Bytes.slice?_eq]
  · have full : 32 + 4 ≤ rest.length := by omega
    have offset : 36 + 4 ≤ rest.length := by omega
    simp only [short, if_false, Option.bind_eq_bind, Option.bind_some,
      Bytes.slice?_eq _ _ (by decide : 4 ≠ 0), full, offset, if_true, gt_iff_lt]
    split
    · next past =>
      rw [if_neg (Nat.not_le.mpr past)]
      simp
    · next within =>
      rw [if_pos (Nat.not_lt.mp within)]
      simp

theorem Progress.addApp1_eq (p : Progress) (payload : Bytes) : p.addApp1 payload = { p with
    record := { p.record with
      exif := (Bytes.after? exifHeader payload).or p.record.exif
      xmp := ((Bytes.after? xmpHeader payload).map Xmp.rdfOfBytes).getD p.record.xmp }
    extended := p.extended ++ ((extendedChunk? payload).map Prod.fst).toList
    extendedLength := max p.extendedLength (((extendedChunk? payload).map Prod.snd).getD 0) } := by
  have longer : max p.extendedLength 0 = p.extendedLength := Nat.max_zero _
  have exifApart : (¬ exifHeader <+: xmpHeader ∧ ¬ xmpHeader <+: exifHeader) ∧
      ¬ exifHeader <+: extendedXmpHeader ∧ ¬ extendedXmpHeader <+: exifHeader := by decide
  have xmpApart : ¬ xmpHeader <+: extendedXmpHeader ∧ ¬ extendedXmpHeader <+: xmpHeader := by decide
  unfold Progress.addApp1
  split
  · next exif starts =>
    have noXmp := Bytes.after?_eq_none_of_after? starts exifApart.1
    have noExtended := Bytes.after?_eq_none_of_after? starts exifApart.2
    simp [starts, noXmp, noExtended, extendedChunk?]
  · next notExif =>
    split
    · next packet starts =>
      have noExtended := Bytes.after?_eq_none_of_after? starts xmpApart
      simp [notExif, starts, noExtended, extendedChunk?]
    · next notXmp =>
      split
      · next rest starts =>
        rw [addExtended_eq p starts]
        simp [notExif, notXmp]
      · next neither => simp [notExif, notXmp, neither, extendedChunk?]

theorem Progress.addApp2_eq (p : Progress) (payload : Bytes) :
    p.addApp2 payload = { p with icc := p.icc ++ (profileChunk? payload).toList } := by
  unfold Progress.addApp2 profileChunk?
  cases Bytes.after? iccHeader payload with
  | none => simp
  | some rest =>
    cases rest with
    | nil => simp
    | cons sequence rest =>
      cases rest with
      | nil => simp
      | cons count part => rfl

theorem Progress.addApp13_eq (p : Progress) (payload : Bytes) :
    p.addApp13 payload = { p with record := { p.record with
      iptc := (photoshopIptc? payload).or p.record.iptc } } := by
  unfold Progress.addApp13 photoshopIptc? Bytes.startsWith PhotoshopResource.findIptc?
  cases Bytes.after? PhotoshopResource.header payload with
  | none => rfl
  | some resources =>
    simp only [Option.isSome_some, if_true, Option.getD_some, Option.bind_some]
    cases PhotoshopResource.find? PhotoshopResource.iptcId resources with
    | none => rfl
    | some iptc => rfl

theorem Progress.addApp14_eq (p : Progress) (payload : Bytes) :
    p.addApp14 payload = { p with record := { p.record with
      hasAdobeSegment := (adobeTransform? payload).isSome || p.record.hasAdobeSegment
      colorTransform := ((adobeTransform? payload).map ColorTransform.ofByte?).getD
        p.record.colorTransform } } := by
  unfold Progress.addApp14 adobeTransform?
  cases payload.startsWith adobeHeader with
  | false => rfl
  | true =>
    cases payload[11]? with
    | none => rfl
    | some _ => rfl

theorem Item.payload?_segment {codes : List UInt8} {marker : Marker}
    (means : ∀ code, Marker.ofCode code = marker ↔ code ∈ codes) (code : SegmentCode)
    (payload : Payload code) : (Item.segment code payload).payload? codes =
      if Marker.ofCode code.value = marker then some payload.bytes else none := by
  simp only [Item.payload?, means]

theorem Progress.add_eq_tell (p : Progress) (item : Item) : p.add item = p.tell item := by
  unfold Progress.tell Item.frame? Item.exif? Item.xmp? Item.extended? Item.profile? Item.iptc?
    Item.adobe?
  cases item with
  | standalone code known => simp [Progress.add, Item.payload?]
  | segment code payload =>
    rw [Progress.add, Progress.addSegment]
    simp only [Item.payload?_segment ofCode_frame_iff, Item.payload?_segment ofCode_app1_iff,
      Item.payload?_segment ofCode_app2_iff, Item.payload?_segment ofCode_app13_iff,
      Item.payload?_segment ofCode_app14_iff]
    cases mark : Marker.ofCode code.value with
    | final => exact absurd mark code.not_final
    | standalone => exact absurd mark code.not_standalone
    | frame =>
      have sized := payload.sized ((ofCode_frame_iff _).mp mark)
      simp [p.addFrame?_eq sized, numberAt]
    | app1 => simp [p.addApp1_eq]
    | app2 => simp [p.addApp2_eq]
    | app13 => simp [p.addApp13_eq]
    | app14 => simp [p.addApp14_eq]
    | other => simp

theorem foldl_add (items : List Item) : items.foldl Progress.add {} = gathered items := by
  induction items using List.reverseRecOn with
  | nil => rfl
  | append_singleton items item ih =>
    rw [List.foldl_concat, ih, Progress.add_eq_tell, gathered_concat]

theorem items_walk (items : List (Nat × Item)) (p : Progress) :
    Walks walkSegment (items.flatMap fun (fill, item) => item.encode fill) p
      ((items.map Prod.snd).foldl Progress.add p) := by
  induction items generalizing p with
  | nil => exact .none p
  | cons part rest ih =>
    have some : part.2.encode part.1 ≠ [] := by
      cases part.2 with
      | standalone => exact List.cons_ne_nil _ _
      | segment => exact List.cons_ne_nil _ _
    exact (Walks.one (walkSegment_item part.1 part.2 p) some).append (ih _)

theorem Stream.reads (stream : Stream) : Reads read stream.encode stream.record := by
  have walked : Reads (Read.walk walkSegment (.io .stalled) {}) _ _ :=
    (items_walk stream.items {}).finish (walkSegment_closing stream.fill stream.closing _)
  rw [foldl_add] at walked
  rw [encode, List.append_assoc]
  exact (Reads.field rfl).lift.bind (walked.map Progress.finish)

/-- A stream of markers and segments is read up to its closing marker, whatever bytes the
payloads hold and whatever follows. Of each kind of segment the last one counts. -/
theorem read_segments (stream : Stream) (trailing : Bytes)
    (fits : stream.encode.length ≤ Read.maxPosition) :
    read.onBytes (stream.encode ++ trailing) = (.ok stream.record, stream.encode.length) := by
  have result := stream.reads (.ofBytes (stream.encode ++ trailing)) trailing rfl
    (by show 0 + _ ≤ _; omega)
  exact Read.onBytes_ok_iff.mpr ⟨_, result, Nat.zero_add _⟩

/-- A stream with fill and restarts, whose payloads hold bytes that look like markers. -/
def misleading : Stream where
  items := [
    (2, .standalone 0xD8 (by decide)),
    (0, .segment { value := 0xE1 } { bytes := exifHeader ++ [0xFF, 0xDA, 0xFF, 0xD9] }),
    (0, .segment { value := 0xC0 } { bytes := [8, 0, 1, 0, 2] }),
    (1, .segment { value := 0xC4 } { bytes := [0xFF, 0xC0, 0, 7, 8, 0, 9, 0, 9] }),
    (0, .standalone 0xD3 (by decide)),
    (0, .segment { value := 0xEE } { bytes := adobeHeader ++ [0, 100, 0xFF, 0xD9, 0, 0, 2] }),
    (0, .segment { value := 0xEE } { bytes := adobeHeader ++ [0xFF, 0xDA] }),
    (0, .segment { value := 0xE1 } { bytes := exifHeader ++ [0xFF, 0xD8] }),
    (3, .segment { value := 0xC2 } { bytes := [8, 0, 3, 0, 4, 0xFF, 0xD9] }),
    (0, .segment { value := 0x00 } { bytes := [] })]
  fill := 1
  closing := .scan

theorem read_segments_misleading : misleading.encode.length ≤ Read.maxPosition ∧
    read.onBytes (misleading.encode ++ [0xFF, 0xC0]) =
      (.ok ⟨4, 3, some [0xFF, 0xD8], none, none, none, none, true, some .ycck⟩, 105) := by
  have fits : misleading.encode.length ≤ Read.maxPosition := by decide +kernel
  have told : misleading.record =
      ⟨4, 3, some [0xFF, 0xD8], none, none, none, none, true, some .ycck⟩ := by decide +kernel
  have length : misleading.encode.length = 105 := by decide +kernel
  have result := read_segments misleading [0xFF, 0xC0] fits
  rw [told, length] at result
  exact ⟨fits, result⟩

end ImageDerivative.Jpeg
