import ImageDerivative.Proofs.Container.GifWalk

/-! Reading a well-formed GIF stream. The walk's turns follow the list of blocks, and
the record it leaves is the one in which the last extension of each kind counts. -/
namespace ImageDerivative.Gif

/-- On input that begins with `bytes`, `walker` answers `a`, stops behind them and
makes `update` of the record. -/
def Takes {α : Type} (walker : Walker α) (bytes : Bytes) (a : α) (update : Record → Record) : Prop :=
  ∀ (w : Walk) (tail : Bytes), w.input.rest = bytes ++ tail →
    w.input.pos + bytes.length ≤ Read.maxPosition →
    walker w = .ok a ⟨w.input.forward bytes.length, update w.record⟩

namespace Takes

variable {α β : Type} {xs ys : Bytes} {f g : Record → Record}

theorem pure (a : α) : Takes (pure a) [] a id := by
  intro w _ _ _
  rw [List.length_nil, Cursor.forward_zero]
  rfl

theorem lift {read : Read ReadFailure α} {a : α} (reads : Reads read xs a) :
    Takes (liftM read) xs a id := by
  intro w tail starts fits
  rw [Walker.lift_apply, reads w.input tail starts fits]
  rfl

theorem found (update : Record → Record) : Takes (Walker.found update) [] () update := by
  intro w _ _ _
  rw [List.length_nil, Cursor.forward_zero]
  rfl

theorem bind {walker : Walker α} {next : α → Walker β} {a : α} {b : β}
    (first : Takes walker xs a f) (last : Takes (next a) ys b g) :
    Takes (walker >>= next) (xs ++ ys) b (g ∘ f) := by
  intro w tail starts fits
  rw [List.append_assoc] at starts
  rw [List.length_append] at fits ⊢
  have moved := last ⟨w.input.forward xs.length, f w.record⟩ tail (Cursor.rest_forward starts)
    (by simp only [Cursor.forward]; omega)
  rw [Cursor.forward_forward] at moved
  simp only [Bind.bind, EStateM.bind, first w (ys ++ tail) starts (by omega)]
  exact moved

/-- A part that leaves the record alone, and what is taken behind it. -/
theorem read_bind {read : Read ReadFailure α} {next : α → Walker β} {a : α} {b : β}
    (first : Reads read xs a) (last : Takes (next a) ys b f) :
    Takes (liftM read >>= next) (xs ++ ys) b f := bind (lift first) last

theorem byte_bind {b : UInt8} {next : UInt8 → Walker α} {a : α} (last : Takes (next b) xs a f) :
    Takes (liftM Read.byte >>= next) (b :: xs) a f := read_bind (.byte b) last

theorem found_read {read : Read ReadFailure α} {a : α} (last : Reads read xs a) :
    Takes (do Walker.found f; liftM read) xs a f := by
  have whole : Takes (do Walker.found f; liftM read) ([] ++ xs) a (id ∘ f) :=
    (found f).bind (lift last)
  exact whole

/-- An answer behind what was taken. -/
theorem answer {walker : Walker α} {a : α} (first : Takes walker xs a f) (b : β) :
    Takes (do let _ ← walker; return b) xs b f := by
  have whole : Takes (do let _ ← walker; return b) (xs ++ []) b (id ∘ f) := first.bind (pure b)
  rwa [List.append_nil] at whole

end Takes

/-- On input that begins with `bytes`, the walk takes turns that end behind them, not
more than there are bytes, and that make `update` of the record. -/
def Passes (bytes : Bytes) (update : Record → Record) : Prop :=
  ∀ (w : Walk) (tail : Bytes), w.input.rest = bytes ++ tail →
    w.input.pos + bytes.length ≤ Read.maxPosition →
    ∃ n ≤ bytes.length,
      Turns (fun () => walkBlock) n () w () ⟨w.input.forward bytes.length, update w.record⟩

namespace Passes

variable {xs ys : Bytes} {f g : Record → Record}

theorem none : Passes [] id := fun w _ _ _ =>
  ⟨0, Nat.le_refl _, by rw [List.length_nil, Cursor.forward_zero]; exact .none⟩

theorem one {b : UInt8} (turn : Takes walkBlock (b :: xs) (.inl ()) f) : Passes (b :: xs) f :=
  fun w tail starts fits => ⟨1, by simp, .one (turn w tail starts fits)⟩

theorem append (first : Passes xs f) (last : Passes ys g) : Passes (xs ++ ys) (g ∘ f) := by
  intro w tail starts fits
  rw [List.append_assoc] at starts
  rw [List.length_append] at fits ⊢
  obtain ⟨m, few, begun⟩ := first w (ys ++ tail) starts (by omega)
  obtain ⟨n, rest, ended⟩ := last ⟨w.input.forward xs.length, f w.record⟩ tail
    (Cursor.rest_forward starts) (by simp only [Cursor.forward]; omega)
  rw [Cursor.forward_forward] at ended
  exact ⟨m + n, by omega, begun.trans ended⟩

end Passes

theorem walkBlock_image {bytes : Bytes} (reads : Reads skipImage bytes ()) :
    Takes walkBlock (0x2C :: bytes) (.inl ()) id :=
  .byte_bind ((Takes.lift reads).answer _)

theorem walkBlock_extension {bytes : Bytes} {f : Record → Record}
    (takes : Takes readExtension bytes () f) : Takes walkBlock (0x21 :: bytes) (.inl ()) f :=
  .byte_bind (takes.answer _)

theorem walkBlock_trailer : Takes walkBlock [0x3B] (.inr ()) id := .byte_bind (.pure _)

theorem walkBlock_quiet {b : UInt8} (quiet : b ≠ 0x2C ∧ b ≠ 0x21 ∧ b ≠ 0x3B) :
    Takes walkBlock [b] (.inl ()) id := by
  refine .byte_bind ?_
  split
  · exact absurd rfl quiet.1
  · exact absurd rfl quiet.2.1
  · exact absurd rfl quiet.2.2
  · exact .pure _

theorem passes_quiet {bytes : Bytes} (quiet : ∀ b ∈ bytes, b ≠ 0x2C ∧ b ≠ 0x21 ∧ b ≠ 0x3B) :
    Passes bytes id := by
  induction bytes with
  | nil => exact .none
  | cons b rest ih =>
    have first := Passes.one (walkBlock_quiet (quiet b List.mem_cons_self))
    exact first.append (ih fun b member => quiet b (List.mem_cons_of_mem _ member))

/-- The empty block that a turn leaves behind. -/
theorem Passes.closed {b : UInt8} {bytes : Bytes} {f : Record → Record}
    (turn : Takes walkBlock (b :: bytes) (.inl ()) f) : Passes (b :: bytes ++ [0]) f :=
  (Passes.one turn).append (passes_quiet (by simp))

theorem readExtension_plainText (grid : Vector UInt8 12) (data : List SubBlock) :
    Takes readExtension (0x01 :: ([12] ++ grid.toList ++ encodeData data)) () id := by
  have sized : ([12] ++ grid.toList).length = 13 := by simp
  refine .byte_bind ?_
  show Takes (do liftM (Read.skip 13); liftM skipSubBlocks) _ _ _
  exact .read_bind (.skip sized (by decide)) (.lift (skipSubBlocks_reads data))

theorem littleEndian_word (n : UInt16) :
    Reads (Read.littleEndian 2) (Bytes.toLittleEndian 2 n.toNat) n.toNat := by
  have read := Reads.littleEndian (Bytes.length_toLittleEndian 2 n.toNat)
  rwa [Bytes.ofLittleEndian_toLittleEndian n.toNat_lt] at read

theorem readExtension_graphicControl (flags : UInt8) (delay : UInt16) (transparent : UInt8) :
    Takes readExtension
      (0xF9 :: ([4, flags] ++ (Bytes.toLittleEndian 2 delay.toNat ++ [transparent]))) ()
      fun record => { record with delayTime := delay.toNat } := by
  have before : Reads (Read.skip 2) [4, flags] () := .skip rfl (by decide)
  have behind : Reads (Read.skip 1) [transparent] () := .skip rfl (by decide)
  refine .byte_bind ?_
  show Takes readGraphicControl _ _ _
  exact .read_bind before (.read_bind (littleEndian_word delay) (.found_read behind))

theorem readExtension_other {label : UInt8} (other : label ≠ 0x01 ∧ label ≠ 0xF9 ∧ label ≠ 0xFF)
    (data : List SubBlock) : Takes readExtension (label :: encodeData data) () id := by
  refine .byte_bind ?_
  split
  · exact absurd rfl other.1
  · exact absurd rfl other.2.2
  · exact absurd rfl other.2.1
  · exact .lift (skipSubBlocks_reads data)

theorem readApplication_named {identifier code rest : Bytes} {f : Record → Record}
    (eight : identifier.length = 8) (three : code.length = 3)
    (takes : Takes (if identifier = Bytes.ofText "NETSCAPE" ∧ code = Bytes.ofText "2.0" then do
        liftM (Read.skip 2)
        let count ← liftM (Read.littleEndian 2)
        Walker.found fun record => { record with loopCount := count }
      else if identifier = Bytes.ofText "XMP Data" ∧ code = Bytes.ofText "XMP" then do
        let xmp ← liftM readXmp
        Walker.found fun record => { record with xmp := xmp }
      else liftM skipSubBlocks) rest () f) :
    Takes readExtension (0xFF :: ([11] ++ (identifier ++ (code ++ rest)))) () f := by
  have size : Reads (Read.skip 1) [11] () := .skip rfl (by decide)
  refine .byte_bind ?_
  show Takes readApplication _ _ _
  exact .read_bind size (.read_bind (.field eight) (.read_bind (.field three) takes))

theorem readExtension_netscape (count : UInt16) :
    Takes readExtension (0xFF :: ([11] ++ (Bytes.ofText "NETSCAPE" ++ (Bytes.ofText "2.0" ++
        ([3, 1] ++ (Bytes.toLittleEndian 2 count.toNat ++ [])))))) ()
      fun record => { record with loopCount := count.toNat } := by
  have before : Reads (Read.skip 2) [3, 1] () := .skip rfl (by decide)
  refine readApplication_named rfl rfl ?_
  rw [if_pos ⟨rfl, rfl⟩]
  exact .read_bind before (.read_bind (littleEndian_word count) (.found _))

theorem readExtension_xmp {packet : Bytes} (nonzero : 0 ∉ packet) :
    Takes readExtension (0xFF :: ([11] ++ (Bytes.ofText "XMP Data" ++ (Bytes.ofText "XMP" ++
        (packet ++ xmpCountdown ++ [0] ++ []))))) ()
      fun record => { record with xmp :=
        if packet.length + xmpTrailerLength ≤ maxXmpLength then Xmp.rdfOfBytes packet else none } := by
  refine readApplication_named rfl rfl ?_
  rw [if_neg (by decide), if_pos ⟨rfl, rfl⟩]
  exact .read_bind (readXmp_reads nonzero) (.found _)

theorem readExtension_application {identifier : Vector UInt8 8} {code : Vector UInt8 3}
    (other : identifier.toList ++ code.toList ≠ netscapeName ∧
      identifier.toList ++ code.toList ≠ xmpName) (data : List SubBlock) :
    Takes readExtension
      (0xFF :: ([11] ++ (identifier.toList ++ (code.toList ++ encodeData data)))) () id := by
  have notNetscape : ¬ (identifier.toList = Bytes.ofText "NETSCAPE" ∧
      code.toList = Bytes.ofText "2.0") := fun same =>
    other.1 (by rw [same.1, same.2, netscapeName])
  have notXmp : ¬ (identifier.toList = Bytes.ofText "XMP Data" ∧
      code.toList = Bytes.ofText "XMP") := fun same =>
    other.2 (by rw [same.1, same.2, xmpName])
  refine readApplication_named (by simp) (by simp) ?_
  rw [if_neg notNetscape, if_neg notXmp]
  exact .lift (skipSubBlocks_reads data)

def Block.findings (block : Block) : Findings := ⟨block.loopCount?, block.delay?, block.xmp?⟩

theorem Block.passes (block : Block) : Passes block.encode block.findings.apply := by
  cases block with
  | image placement flags table codeSize data =>
    have turn : Passes _ (findings (.image placement flags table codeSize data)).apply :=
      .one (walkBlock_image (skipImage_reads placement table codeSize data))
    simpa only [encode, List.append_assoc, List.cons_append, List.nil_append] using turn
  | plainText grid data =>
    have turn : Passes _ (findings (.plainText grid data)).apply :=
      .one (walkBlock_extension (readExtension_plainText grid data))
    simpa only [encode, List.append_assoc, List.cons_append, List.nil_append] using turn
  | graphicControl flags delay transparent =>
    have turn : Passes _ (findings (.graphicControl flags delay transparent)).apply :=
      .closed (walkBlock_extension (readExtension_graphicControl flags delay transparent))
    simpa only [encode, List.append_assoc, List.cons_append, List.nil_append] using turn
  | netscape count =>
    have turn : Passes _ (findings (.netscape count)).apply :=
      .closed (walkBlock_extension (readExtension_netscape count))
    simpa only [encode, netscapeName, List.append_assoc, List.cons_append, List.nil_append] using turn
  | xmp packet nonzero =>
    have turn : Passes _ (findings (.xmp packet nonzero)).apply :=
      .closed (walkBlock_extension (readExtension_xmp nonzero))
    simpa only [encode, xmpName, xmpTrailer, List.append_assoc, List.cons_append, List.nil_append]
      using turn
  | application identifier code other data =>
    have turn : Passes _ (findings (.application identifier code other data)).apply :=
      .one (walkBlock_extension (readExtension_application other data))
    simpa only [encode, List.append_assoc, List.cons_append, List.nil_append] using turn
  | extension label other data =>
    have turn : Passes _ (findings (.extension label other data)).apply :=
      .one (walkBlock_extension (readExtension_other other data))
    simpa only [encode, List.append_assoc, List.cons_append, List.nil_append] using turn

theorem blocks_pass (blocks : List (Gap × Block)) :
    Passes (blocks.flatMap fun (gap, block) => gap.bytes ++ block.encode)
      fun record => blocks.foldl (fun record part => part.2.findings.apply record) record := by
  induction blocks with
  | nil => exact .none
  | cons part rest ih =>
    have first := (passes_quiet part.1.quiet).append part.2.passes
    exact first.append ih

/-- A fold in which each element may replace the value keeps the last replacement. -/
theorem foldl_getD {α β : Type} (replace : β → Option α) (items : List β) (start : α) :
    items.foldl (fun value item => (replace item).getD value) start =
      (items.filterMap replace).getLast?.getD start := by
  induction items generalizing start with
  | nil => rfl
  | cons item rest ih =>
    rw [List.foldl_cons, ih, List.filterMap_cons]
    cases replace item with
    | none => rfl
    | some value => rw [List.getLast?_cons, Option.getD_some, Option.getD_some]

theorem foldl_update (blocks : List (Gap × Block)) (record : Record) :
    blocks.foldl (fun record part => part.2.findings.apply record) record =
      { record with
        loopCount :=
          ((blocks.map Prod.snd).filterMap Block.loopCount?).getLast?.getD record.loopCount
        delayTime := ((blocks.map Prod.snd).filterMap Block.delay?).getLast?.getD record.delayTime
        xmp := ((blocks.map Prod.snd).filterMap Block.xmp?).getLast?.getD record.xmp } := by
  simp only [← foldl_getD, List.foldl_map]
  induction blocks generalizing record with
  | nil => rfl
  | cons part rest ih => rw [List.foldl_cons, ih]; rfl

/-- A walk that ends with the trailer. -/
theorem walkBlocks_takes {bytes : Bytes} {f : Record → Record} (passes : Passes bytes f) :
    Takes walkBlocks (bytes ++ [0x3B]) () f := by
  intro w tail starts fits
  have remaining := Cursor.remaining_eq starts
  rw [List.append_assoc] at starts
  rw [List.length_append] at fits remaining ⊢
  obtain ⟨n, few, begun⟩ := passes w ([0x3B] ++ tail) starts (by omega)
  have ended := walkBlock_trailer ⟨w.input.forward bytes.length, f w.record⟩ tail
    (Cursor.rest_forward starts) (by simp only [Cursor.forward]; omega)
  rw [Cursor.forward_forward] at ended
  exact begun.finish ended (by omega)

namespace Stream

/-- What the header tells, and what holds where no extension says otherwise. -/
def headerRecord (stream : Stream) : Record where
  width := stream.width.toNat
  height := stream.height.toNat
  colorTableLength := colorTableLength? stream.flags
  loopCount := defaultLoopCount
  delayTime := 0
  xmp := none

theorem version_text (version : Version) :
    (Bytes.ofText version.text).length = 3 ∧
      (Bytes.ofText version.text = Bytes.ofText "87a" ∨
        Bytes.ofText version.text = Bytes.ofText "89a") := by
  cases version
  · exact ⟨rfl, .inl rfl⟩
  · exact ⟨rfl, .inr rfl⟩

theorem readHeader_reads (stream : Stream) :
    Reads readHeader stream.encodeHeader stream.headerRecord := by
  obtain ⟨three, known⟩ := version_text stream.version
  have behind : Reads (Read.skip 2) [stream.background, stream.aspect] () := .skip rfl (by decide)
  have parts : stream.encodeHeader = Bytes.ofText "GIF" ++ (Bytes.ofText stream.version.text ++
      (Bytes.toLittleEndian 2 stream.width.toNat ++ (Bytes.toLittleEndian 2 stream.height.toNat ++
        ([stream.flags] ++ [stream.background, stream.aspect])))) := by
    simp only [encodeHeader, List.append_assoc]
  rw [parts]
  refine .bind (Reads.field rfl).lift ?_
  simp only [if_true]
  refine .bind (Reads.field three).lift ?_
  simp only [known, if_true]
  refine .bind (littleEndian_word stream.width).lift ?_
  refine .bind (littleEndian_word stream.height).lift ?_
  refine .bind (Reads.byte stream.flags).lift ?_
  exact behind.lift.map fun _ => stream.headerRecord

def body (stream : Stream) : Bytes := stream.encodeBlocks ++ stream.gap.bytes ++ [0x3B]

theorem body_takes (stream : Stream) :
    ∃ f, Takes walkBlocks stream.body () f ∧ f stream.headerRecord = stream.record := by
  have passes := (blocks_pass stream.blocks).append (passes_quiet stream.gap.quiet)
  refine ⟨_, walkBlocks_takes passes, ?_⟩
  show stream.blocks.foldl (fun record part => part.2.findings.apply record) stream.headerRecord = _
  rw [foldl_update]
  simp only [headerRecord, record, defaultLoopCount]
  congr 1
  cases ((stream.blocks.map Prod.snd).filterMap Block.xmp?).getLast? with
  | none => rfl
  | some _ => rfl

/-- The table that the header declares is there, so that the walk begins behind it. -/
theorem blockStart_eq (stream : Stream) {start : Cursor} {tail : Bytes}
    (starts : start.rest = stream.table.bytes ++ (stream.body ++ tail)) :
    blockStart start stream.headerRecord =
      (start.withMarks (start.pos :: start.marks)).forward stream.table.bytes.length := by
  have counted := stream.table.length_eq
  simp only [blockStart, headerRecord]
  cases given : colorTableLength? stream.flags with
  | none =>
    rw [given, Option.getD_none] at counted
    rw [counted, Cursor.forward_zero]
  | some length =>
    rw [given, Option.getD_some] at counted
    have ahead := Cursor.remaining_eq starts
    have more : 0 < (stream.body ++ tail).length := by
      simp only [body, List.length_append, List.length_singleton]
      omega
    have inside : length < start.size := by
      unfold Cursor.remaining at ahead
      omega
    simp only [inside, if_true, counted]

/-- The blocks behind the header, with the table that the header declares. -/
theorem readBlocks_ok (stream : Stream) {start : Cursor} {tail : Bytes}
    (starts : start.rest = stream.table.bytes ++ (stream.body ++ tail))
    (fits : start.pos + (stream.table.bytes.length + stream.body.length) ≤ Read.maxPosition) :
    ∃ input, readBlocks ⟨start, stream.headerRecord⟩ = .ok () ⟨input, stream.record⟩ ∧
      input.pos = start.pos + (stream.table.bytes.length + stream.body.length) := by
  obtain ⟨f, takes, told⟩ := body_takes stream
  have near : start.pos + (colorTableLength? stream.flags).getD 0 ≤ Read.maxPosition := by
    rw [← stream.table.length_eq]
    omega
  let marked := start.withMarks (start.pos :: start.marks)
  have placed : marked.pos = start.pos := rfl
  have walked := takes ⟨marked.forward stream.table.bytes.length, stream.headerRecord⟩ tail
    (Cursor.rest_forward starts) (by simp only [Cursor.forward]; omega)
  rw [told] at walked
  rw [readBlocks_eq rfl near, walkOrRetry_eq, blockStart_eq stream starts, walked]
  exact ⟨_, rfl, by simp only [Cursor.forward, placed, Nat.add_assoc]⟩

end Stream

/-- A well-formed stream is read up to its trailer, whatever bytes its tables and
counted runs hold and whatever follows it. -/
theorem read_encode (stream : Stream) (trailing : Bytes)
    (fits : stream.encode.length ≤ Read.maxPosition) :
    read.onBytes (stream.encode ++ trailing) = (.ok stream.record, stream.encode.length) := by
  have parts : stream.encode = stream.encodeHeader ++ (stream.table.bytes ++ stream.body) := by
    simp only [Stream.encode, Stream.body, List.append_assoc]
  let input := Cursor.ofBytes (stream.encode ++ trailing)
  have starts : input.rest =
      stream.encodeHeader ++ (stream.table.bytes ++ (stream.body ++ trailing)) := by
    show stream.encode ++ trailing = _
    simp only [parts, List.append_assoc]
  rw [parts, List.length_append, List.length_append] at fits
  have zero : input.pos = 0 := rfl
  have header := stream.readHeader_reads input _ starts (by omega)
  obtain ⟨last, blocks, stopped⟩ := stream.readBlocks_ok (Cursor.rest_forward starts)
    (by simp only [Cursor.forward]; omega)
  have result : read input = .ok stream.record last := by
    unfold read
    simp only [header, blocks]
  have stop : last.pos = stream.encode.length := by
    rw [stopped, parts, List.length_append, List.length_append]
    simp only [Cursor.forward, zero, Nat.zero_add]
  unfold Read.onBytes
  rw [result]
  exact Prod.ext rfl stop

/-- A stream whose table and comment hold bytes that introduce blocks elsewhere. -/
def crowded : Stream where
  version := .v89a
  width := 3
  height := 2
  flags := 1
  background := 0x21
  aspect := 0x3B
  table := ⟨[0x3B, 0x21, 0xF9, 0x2C, 0x3B, 0x21, 0xF9, 4, 0, 9, 0, 0], rfl⟩
  blocks := [
    (⟨[], nofun⟩, .graphicControl 0 9 0),
    (⟨[5], by simp⟩, .netscape 3),
    (⟨[], nofun⟩, .extension 0xFE (by decide) [⟨[0x3B, 0x21, 0xF9], nofun, by decide⟩]),
    (⟨[], nofun⟩, .xmp (Bytes.ofText "<rdf:RDF></rdf:RDF>") (by decide)),
    (⟨[], nofun⟩, .graphicControl 0 7 0)]
  gap := ⟨[0], by simp⟩

theorem read_encode_crowded :
    crowded.encode.length ≤ Read.maxPosition ∧
      read.onBytes (crowded.encode ++ [0x21, 0x3B]) =
        (.ok ⟨3, 2, some 12, 3, 7, some "<rdf:RDF></rdf:RDF>"⟩, 361) := by
  have fits : crowded.encode.length ≤ Read.maxPosition := by decide +kernel
  have told : crowded.record = ⟨3, 2, some 12, 3, 7, some "<rdf:RDF></rdf:RDF>"⟩ := by cbv
  have length : crowded.encode.length = 361 := by decide +kernel
  have result := read_encode crowded [0x21, 0x3B] fits
  rw [told, length] at result
  exact ⟨fits, result⟩

end ImageDerivative.Gif
