import ImageDerivative.Proofs.Container.Jp2Format
import ImageDerivative.Proofs.Container.Jp2Walk

/-! Reading a well-formed JP2 stream. The walk over the boxes takes one box a turn,
whichever way its length is stated, and ends with the codestream, in which a second walk
takes one segment a turn. -/
namespace ImageDerivative.Jp2

theorem contentLength_extension {form : LengthForm} {count : Nat} (fits : form.Fits count)
    {c : Cursor} {tail : Bytes} (starts : c.rest = form.extension count ++ tail)
    (place : c.pos + (form.extension count).length ≤ Read.maxPosition) :
    ∃ n, contentLength (form.announced count) c =
        .ok n (c.forward (form.extension count).length) ∧ (form ≠ .toEnd → n = count) := by
  cases form with
  | short =>
    have covered : ¬ count + 8 < 8 := by omega
    refine ⟨count, ?_, fun _ => rfl⟩
    rw [contentLength_eq]
    show (if count + 8 < 8 then _ else _) = _
    rw [if_neg covered]
    exact congrArg _ c.forward_zero.symm
  | extended =>
    have number : Reads (Read.bigEndian 8) (Bytes.toBigEndian 8 (count + 16)) (count + 16) :=
      .number fits
    have covered : ¬ count + 16 < 16 := by omega
    have reads : Reads (contentLength 1) (LengthForm.extended.extension count) count := by
      refine number.lift.bind_nil ?_
      rw [if_neg covered]
      exact .pure _
    exact ⟨count, reads c tail starts place, fun _ => rfl⟩
  | toEnd => exact ⟨c.size - c.pos, congrArg _ c.forward_zero.symm, fun other => absurd rfl other⟩

theorem LengthForm.announced_lt {form : LengthForm} {count : Nat} (fits : form.Fits count) :
    form.announced count < 256 ^ 4 := by
  cases form with
  | short => exact fits
  | extended =>
    show 1 < 256 ^ 4
    decide
  | toEnd =>
    show 0 < 256 ^ 4
    decide

/-- A header is read to its end, and gives the type. Unless the length is left open, it
also gives how much there is behind it. -/
theorem readHeader_header {form : LengthForm} {type : Bytes} {count : Nat} (four : type.length = 4)
    (fits : form.Fits count) {c : Cursor} {tail : Bytes}
    (starts : c.rest = form.header type count ++ tail)
    (place : c.pos + (form.header type count).length ≤ Read.maxPosition) :
    ∃ n, readHeader c = .ok (type, n) (c.forward (form.header type count).length) ∧
      (form ≠ .toEnd → n = count) := by
  have announced := (Reads.number (LengthForm.announced_lt fits)).lift
  have typed : Reads (liftM (Read.field 4)) type type := (Reads.field four).lift
  rw [LengthForm.header, List.length_append, List.length_append] at place ⊢
  rw [LengthForm.header, List.append_assoc, List.append_assoc] at starts
  have first := Cursor.rest_forward starts
  have second := Cursor.rest_forward first
  obtain ⟨n, ran, known⟩ := contentLength_extension fits second (by simp only [Cursor.forward]; omega)
  refine ⟨n, ?_, known⟩
  rw [readHeader, announced.bind_apply starts (by omega),
    typed.bind_apply first (by simp only [Cursor.forward]; omega)]
  simp only [Bind.bind, EStateM.bind, ran]
  simp only [Cursor.forward_forward, Nat.add_assoc]
  rfl

/-- Where a box begins, the walk reads its header and goes on with the contents. -/
theorem walkBox_header {form : LengthForm} {type : Bytes} {count : Nat} (four : type.length = 4)
    (fits : form.Fits count) (record : Record) {c : Cursor} {tail : Bytes}
    (starts : c.rest = form.header type count ++ tail)
    (place : c.pos + (form.header type count).length ≤ Read.maxPosition) :
    ∃ n, walkBox record c =
        readContents record type n (c.forward (form.header type count).length) ∧
      (form ≠ .toEnd → n = count) := by
  obtain ⟨n, header, known⟩ := readHeader_header four fits starts place
  have ahead := Cursor.remaining_eq starts
  have some : 4 ≤ (form.header type count).length := by
    simp only [LengthForm.header, List.length_append, Bytes.length_toBigEndian]
    omega
  have inside : ¬ c.size ≤ c.pos := by
    unfold Cursor.remaining at ahead
    omega
  refine ⟨n, ?_, known⟩
  rw [walkBox_eq, if_neg inside]
  simp only [Bind.bind, EStateM.bind, header]

/-- What a box leaves of a record: it replaces what it tells. -/
def Item.tell (record : Record) (item : Item) : Record :=
  { record with
    exif := (item.kept? exifUuid).or record.exif
    iptc := (item.kept? iptcUuid).or record.iptc
    xmp := ((item.kept? xmpUuid).map Xmp.rdfOfBytes).getD record.xmp }

theorem Item.kept?_unnamed {item : Item} (plain : item.type.toList ≠ uuidType) (uuid : Bytes) :
    item.kept? uuid = none := by
  rw [kept?, if_neg fun both => plain both.1]

theorem Item.kept?_named {item : Item} (named : item.type.toList = uuidType) (uuid : Bytes) :
    item.kept? uuid =
      if item.payload.take 16 = uuid then some (item.payload.drop 16) else none := by
  simp only [kept?, named, true_and]

/-- Contents behind an identifier are kept or passed over. -/
theorem readIdentified_reads (record : Record) (item : Item)
    (named : item.type.toList = uuidType) :
    Reads (readIdentified record (item.payload.drop 16).length (item.payload.take 16))
      (item.payload.drop 16) (item.tell record) := by
  have apart : exifUuid ≠ iptcUuid ∧ exifUuid ≠ xmpUuid ∧ iptcUuid ≠ xmpUuid := by decide
  have taken := (Reads.run (item.payload.drop 16)).lift
  have near : (item.payload.drop 16).length ≤ Read.maxSkip := by
    rw [List.length_drop]
    exact Nat.le_trans (Nat.sub_le _ _) item.near
  unfold readIdentified Item.tell
  simp only [Item.kept?_named named]
  split
  · next same =>
    rw [same, if_neg apart.1, if_neg apart.2.1]
    exact taken.map _
  · next notExif =>
    split
    · next same =>
      rw [same, if_neg apart.2.2]
      exact taken.map _
    · next notIptc =>
      split
      · exact taken.map _
      · exact (Reads.skip rfl near).lift.map _

theorem readContents_reads (record : Record) (item : Item) :
    Reads (readContents record item.type.toList item.payload.length) item.payload
      (.inl (item.tell record)) := by
  unfold readContents
  split
  · next named =>
    have long := item.identified named
    have sixteen : (item.payload.take 16).length = 16 := by
      rw [List.length_take]
      omega
    have behind := readIdentified_reads record item named
    rw [List.length_drop] at behind
    rw [readUuidBox_eq, if_neg (Nat.not_lt.mpr long)]
    have reads := (((Reads.field sixteen).lift).bind behind).map (Sum.inl : Record → Record ⊕ Record)
    rwa [List.take_append_drop] at reads
  · next plain =>
    rw [if_neg item.other]
    have left : item.tell record = record := by
      simp only [Item.tell, Item.kept?_unnamed plain]
      rfl
    rw [left]
    exact (Reads.skip rfl item.near).lift.map _

/-- A turn takes one box. -/
theorem walkBox_item (record : Record) (item : Item) :
    Reads (walkBox record) item.encode (.inl (item.tell record)) := by
  intro c tail starts place
  rw [Item.encode, List.append_assoc] at starts
  rw [Item.encode, List.length_append] at place ⊢
  obtain ⟨n, ran, known⟩ := walkBox_header Vector.length_toList item.fits record starts (by omega)
  rw [ran, known item.closed, ← Cursor.forward_forward]
  exact readContents_reads record item _ tail (Cursor.rest_forward starts)
    (by simp only [Cursor.forward]; omega)

theorem Item.encode_ne_nil (item : Item) : item.encode ≠ [] := by
  intro empty
  have length := congrArg List.length empty
  simp only [Item.encode, LengthForm.header, List.length_append, Bytes.length_toBigEndian,
    List.length_nil] at length
  omega

theorem items_pass (items : List Item) (record : Record) :
    Walks walkBox (items.flatMap Item.encode) record (items.foldl Item.tell record) := by
  induction items generalizing record with
  | nil => exact .none record
  | cons item rest ih => exact (Walks.one (walkBox_item record item) item.encode_ne_nil).append (ih _)

theorem lastKept?_cons (uuid : Bytes) (item : Item) (rest : List Item) :
    lastKept? uuid (item :: rest) = (lastKept? uuid rest).or (item.kept? uuid) := by
  rw [lastKept?, List.filterMap_cons, lastKept?]
  cases item.kept? uuid with
  | none => rw [Option.or_none]
  | some contents =>
    rw [List.getLast?_cons]
    cases (rest.filterMap (Item.kept? uuid)).getLast? with
    | none => rfl
    | some _ => rfl

/-- Of each kind of box, the last one counts. -/
theorem foldl_tell (items : List Item) (record : Record) :
    items.foldl Item.tell record = { record with
      exif := (lastKept? exifUuid items).or record.exif
      iptc := (lastKept? iptcUuid items).or record.iptc
      xmp := ((lastKept? xmpUuid items).map Xmp.rdfOfBytes).getD record.xmp } := by
  induction items generalizing record with
  | nil => rfl
  | cons item rest ih =>
    rw [List.foldl_cons, ih]
    simp only [Item.tell, lastKept?_cons, Option.or_assoc, Option.map_or, Option.getD_or]

/-- The signature is a box like any other. -/
def signatureItem : Item where
  form := .short
  type := #v[0x6A, 0x50, 0x20, 0x20]
  payload := [0x0D, 0x0A, 0x87, 0x0A]

namespace Wrapping

variable (wrapping : Wrapping)

theorem foldl_tell_items :
    wrapping.items.foldl Item.tell {} = wrapping.complete {} := by
  rw [foldl_tell, complete]
  cases lastKept? xmpUuid wrapping.items with
  | none => simp
  | some _ => simp

theorem signed (count : Nat) (rest : Bytes) :
    Format.jp2Signature <+: wrapping.front count ++ rest :=
  ((List.prefix_append _ _).trans (List.prefix_append _ _)).trans (List.prefix_append _ _)

/-- In front of a codestream the walk comes to it, with the metadata of the boxes. -/
theorem walkBoxes_front {count : Nat} (fits : wrapping.form.Fits count) {c : Cursor} {tail : Bytes}
    (starts : c.rest = wrapping.front count ++ tail)
    (place : c.pos + (wrapping.front count).length ≤ Read.maxPosition) :
    walkBoxes {} c =
      readCodestream (wrapping.complete {}) (c.forward (wrapping.front count).length) := by
  let items := signatureItem :: wrapping.items
  have parts : wrapping.front count =
      items.flatMap Item.encode ++ wrapping.form.header codestreamType count := rfl
  have remaining := Cursor.remaining_eq starts
  rw [parts, List.append_assoc] at starts
  rw [parts, List.length_append] at place remaining ⊢
  obtain ⟨turns, few, passed⟩ := items_pass items {} c _ starts (by omega)
  have told : items.foldl Item.tell {} = wrapping.complete {} := wrapping.foldl_tell_items
  rw [told] at passed
  have four : codestreamType.length = 4 := rfl
  obtain ⟨n, last, -⟩ := walkBox_header four fits (wrapping.complete {}) (Cursor.rest_forward starts)
    (by simp only [Cursor.forward]; omega)
  obtain ⟨left, bound⟩ := Nat.exists_eq_add_of_le few
  have enough : c.remaining + 1 = turns +
      ((left + (wrapping.form.header codestreamType count).length + tail.length) + 1) := by omega
  have named : codestreamType ≠ uuidType := by decide
  show repeatUpTo _ walkBox (c.remaining + 1) {} c = _
  rw [enough, passed.repeatUpTo_eq, repeatUpTo]
  simp only [Bind.bind, EStateM.bind, last, readContents, if_neg named, if_true,
    Cursor.forward_forward]
  cases readCodestream (wrapping.complete {}) (c.forward _) with
  | ok record d => rfl
  | error failure d => rfl

end Wrapping

theorem segmentLength_reads {n : Nat} (short : n ≤ 65533) :
    Reads segmentLength (Bytes.toBigEndian 2 (n + 2)) n := by
  have fits : n + 2 < 256 ^ 2 := by omega
  refine (Reads.number fits).lift.bind_nil ?_
  rw [if_neg (by omega)]
  exact .pure _

theorem readSegment_reads {payload : Bytes} (short : payload.length ≤ 65533) :
    Reads readSegment (Bytes.toBigEndian 2 (payload.length + 2) ++ payload) payload :=
  (segmentLength_reads short).bind (Reads.run payload).lift

theorem numberAt_append {before : Bytes} {start : Nat} (behind : before.length ≤ start)
    (rest : Bytes) (width : Nat) :
    numberAt (before ++ rest) start width = numberAt rest (start - before.length) width := by
  rw [numberAt, List.drop_append, List.drop_eq_nil_of_le behind, List.nil_append, numberAt]

theorem numberAt_toBigEndian {width n : Nat} (fits : n < 256 ^ width) (rest : Bytes) :
    numberAt (Bytes.toBigEndian width n ++ rest) 0 width = n := by
  have taken : (Bytes.toBigEndian width n ++ rest).take width = Bytes.toBigEndian width n :=
    List.take_left' (Bytes.length_toBigEndian width n)
  rw [numberAt, List.drop_zero, taken, Bytes.ofBigEndian_toBigEndian fits]

theorem numberAt_cons (b : UInt8) (rest : Bytes) : numberAt (b :: rest) 0 1 = b.toNat := by
  simp [numberAt, Bytes.ofBigEndian]

namespace SizeSegment

theorem length_encode (size : SizeSegment) : size.encode.length = size.rest.length + 37 := by
  simp only [encode, List.length_append, Vector.length_toList, Bytes.length_toBigEndian,
    List.length_singleton]
  omega

def tell (record : Record) (size : SizeSegment) : Record :=
  { record with
    width := size.width.toNat
    height := size.height.toNat
    tileWidth := size.tileWidth.toNat
    tileHeight := size.tileHeight.toNat
    numComponents := size.components.toNat
    componentSize := size.depth.toNat % 128 + 1 }

theorem withSize_encode (record : Record) (size : SizeSegment) :
    record.withSize size.encode = size.tell record := by
  have word (n : UInt32) (rest : Bytes) : numberAt (Bytes.toBigEndian 4 n.toNat ++ rest) 0 4 = n.toNat :=
    numberAt_toBigEndian n.toNat_lt rest
  have half (n : UInt16) (rest : Bytes) : numberAt (Bytes.toBigEndian 2 n.toNat ++ rest) 0 2 = n.toNat :=
    numberAt_toBigEndian n.toNat_lt rest
  simp [Record.withSize, tell, encode, numberAt_append, word, half, numberAt_cons]

end SizeSegment

theorem walkMarker_start (record : Record) : Reads (walkMarker record) [0xFF, 0x4F] (.inl record) :=
  (Reads.field rfl).lift.bind_nil (.pure _)

theorem walkMarker_size (record : Record) (size : SizeSegment) :
    Reads (walkMarker record)
      ([0xFF, 0x51] ++ (Bytes.toBigEndian 2 (size.encode.length + 2) ++ size.encode))
      (.inl (size.tell record)) := by
  have short : size.encode.length ≤ 65533 := by
    have rest := size.short
    rw [size.length_encode]
    omega
  have long : ¬ size.encode.length < minSizeLength := by
    rw [size.length_encode, minSizeLength]
    omega
  refine (Reads.field rfl).lift.bind ((readSegment_reads short).bind_nil ?_)
  rw [if_neg long, size.withSize_encode]
  exact .pure _

def Segment.tell (record : Record) (segment : Segment) : Record :=
  { record with decompositionLevels := segment.levels?.getD record.decompositionLevels }

theorem walkMarker_segment (record : Record) (segment : Segment) :
    Reads (walkMarker record) segment.encode (.inl (segment.tell record)) := by
  have plain := segment.plain
  simp only [reservedCodes, List.mem_cons, List.not_mem_nil, or_false, not_or] at plain
  obtain ⟨notStart, notSize, notComponent, notTile, notData, notEnding⟩ := plain
  have taken := readSegment_reads segment.short
  have passed := (Reads.skip rfl (Nat.le_trans segment.short (by decide : 65533 ≤ Read.maxSkip))).lift
  rw [Segment.encode, List.append_assoc]
  refine (Reads.field rfl).lift.bind ?_
  simp only
  split
  · next start => exact absurd start notStart
  · next size => exact absurd size notSize
  · next coding =>
    have coded : segment.code = codingCode := coding
    obtain ⟨levels, found⟩ : ∃ levels, segment.payload[5]? = some levels :=
      ⟨_, List.getElem?_eq_getElem (segment.long coded)⟩
    refine taken.bind_nil ?_
    rw [Segment.tell, Segment.levels?, if_pos coded, found]
    exact .pure _
  · next component => exact absurd component notComponent
  · next tile => exact absurd tile notTile
  · next data => exact absurd data notData
  · next ending => exact absurd ending notEnding
  · next notCoding _ _ _ _ =>
    have other : segment.code ≠ codingCode := notCoding
    rw [Segment.tell, Segment.levels?, if_neg other]
    exact (segmentLength_reads segment.short).bind (passed.map _)

theorem walkMarker_closing (record : Record) (closing : Closing) :
    Reads (walkMarker record) [0xFF, closing.code] (.inr record) := by
  cases closing with
  | tile => exact (Reads.field rfl).lift.bind_nil (.pure _)
  | data => exact (Reads.field rfl).lift.bind_nil (.pure _)
  | ending => exact (Reads.field rfl).lift.bind_nil (.pure _)

theorem segments_pass (segments : List Segment) (record : Record) :
    Walks walkMarker (segments.flatMap Segment.encode) record
      (segments.foldl Segment.tell record) := by
  induction segments generalizing record with
  | nil => exact .none record
  | cons segment rest ih =>
    have some : segment.encode ≠ [] := List.cons_ne_nil _ _
    exact (Walks.one (walkMarker_segment record segment) some).append (ih _)

/-- The last segment that states the decompositions counts. -/
theorem foldl_tell_segments (segments : List Segment) (record : Record) :
    segments.foldl Segment.tell record = { record with
      decompositionLevels :=
        (segments.filterMap Segment.levels?).getLast?.getD record.decompositionLevels } := by
  induction segments generalizing record with
  | nil => rfl
  | cons segment rest ih =>
    rw [List.foldl_cons, ih, List.filterMap_cons, Segment.tell]
    cases segment.levels? with
    | none => rfl
    | some levels => rw [List.getLast?_cons, Option.getD_some, Option.getD_some]

/-- The main header is read to its end. It leaves what the boxes have told. -/
theorem Codestream.reads (codestream : Codestream) (wrapping : Wrapping) :
    Reads (readCodestream (wrapping.complete {})) codestream.mainHeader
      (wrapping.complete codestream.record) := by
  let record := wrapping.complete {}
  have start := Walks.one (walkMarker_start record) (List.cons_ne_nil _ _)
  have size := Walks.one (walkMarker_size record codestream.size) (List.cons_ne_nil _ _)
  have told : codestream.segments.foldl Segment.tell (codestream.size.tell record) =
      wrapping.complete codestream.record := by
    rw [foldl_tell_segments]
    rfl
  have turns := (start.append size).append (segments_pass codestream.segments _)
  rw [told] at turns
  exact turns.finish (walkMarker_closing _ codestream.closing)

/-- A stream of boxes around a codestream is read up to the end of the main header,
whatever bytes the boxes and segments hold and whatever follows. Of the boxes with one
identifier the last one counts, and so does the last segment with a number of
decompositions. -/
theorem read_mainHeader (stream : Stream) (trailing : Bytes)
    (fits : stream.head.length ≤ Read.maxPosition) :
    read.onBytes (stream.encode ++ trailing) = (.ok stream.record, stream.head.length) := by
  let front := stream.wrapping.front stream.codestream.encode.length
  have head : stream.head = front ++ stream.codestream.mainHeader := rfl
  have parts : stream.encode ++ trailing =
      front ++ (stream.codestream.mainHeader ++ (stream.codestream.tiles ++ trailing)) := by
    simp only [Stream.encode, head, List.append_assoc]
  have signed : Format.jp2Signature <+: stream.encode ++ trailing := by
    rw [parts]
    exact stream.wrapping.signed _ _
  let input := Cursor.ofBytes (stream.encode ++ trailing)
  have zero : input.pos = 0 := rfl
  rw [head, List.length_append] at fits ⊢
  have place : input.pos + front.length ≤ Read.maxPosition := by omega
  have boxes := stream.wrapping.walkBoxes_front stream.fits parts place
  have header := stream.codestream.reads stream.wrapping (input.forward front.length) _
    (Cursor.rest_forward parts) (by simp only [Cursor.forward]; omega)
  have result : read input = .ok stream.record
      ((input.forward front.length).forward stream.codestream.mainHeader.length) := by
    rw [read_signed signed, boxes]
    exact header
  refine Read.onBytes_ok_iff.mpr ⟨_, result, ?_⟩
  simp only [Cursor.forward, zero, Nat.zero_add]

/-- Boxes of every form, among them one with the type of a codestream in its contents,
and two segments with a number of decompositions. -/
def layered : Stream where
  wrapping := {
    items := [
      { form := .extended, type := #v[0x66, 0x72, 0x65, 0x65], payload := [0x6A, 0x70, 0x32, 0x63] },
      { form := .short, type := #v[0x75, 0x75, 0x69, 0x64], payload := exifUuid ++ [1, 2] },
      { form := .extended, type := #v[0x75, 0x75, 0x69, 0x64], payload := iptcUuid ++ [0x1C] },
      { form := .short, type := #v[0x75, 0x75, 0x69, 0x64], payload := List.replicate 17 0xAA },
      { form := .short, type := #v[0x75, 0x75, 0x69, 0x64],
        payload := xmpUuid ++ Bytes.ofText "<x><rdf:RDF></rdf:RDF></x>" },
      { form := .extended, type := #v[0x75, 0x75, 0x69, 0x64], payload := exifUuid ++ [3] }]
    form := .toEnd }
  codestream := {
    size := {
      capabilities := #v[0, 0], width := 0x01020304, height := 7
      offset := Vector.replicate 8 0xFF, tileWidth := 5, tileHeight := 6
      tileOffset := Vector.replicate 8 0xFF, components := 0x0103, depth := 0x87, rest := [1, 1] }
    segments := [
      { code := 0x52, payload := [0, 0, 0, 0, 0, 5] },
      { code := 0x64, payload := [0xFF, 0x90] },
      { code := 0x52, payload := [0, 0, 0, 0, 0, 2, 9] }]
    closing := .data
    tiles := [0xFF, 0x53] }

theorem read_mainHeader_layered : layered.head.length ≤ Read.maxPosition ∧
    read.onBytes (layered.encode ++ [0xFF]) =
      (.ok ⟨0x01020304, 7, 5, 6, 0x0103, 8, 2, some [3], some [0x1C], some "<rdf:RDF></rdf:RDF>"⟩,
        281) := by
  have fits : layered.head.length ≤ Read.maxPosition := by decide +kernel
  have told : layered.record =
      ⟨0x01020304, 7, 5, 6, 0x0103, 8, 2, some [3], some [0x1C], some "<rdf:RDF></rdf:RDF>"⟩ := by
    cbv
  have length : layered.head.length = 281 := by decide +kernel
  have result := read_mainHeader layered [0xFF] fits
  rw [told, length] at result
  exact ⟨fits, result⟩

end ImageDerivative.Jp2
