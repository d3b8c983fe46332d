import ImageDerivative.Proofs.Container.JpegChunks
import ImageDerivative.Proofs.Container.JpegParse

/-! Packets and profiles that are spread over several segments. Each segment says where its
slice belongs, so that the whole is found again in whatever order the segments come and
whatever else stands between them. -/
namespace ImageDerivative.Jpeg

def packetCode : UInt8 := 0xE1

def profileCode : UInt8 := 0xE2

/-- A slice of an extended packet, with the identifier that its segment gives the packet. -/
structure PacketSlice where
  identifier : Vector UInt8 32
  bytes : Bytes
  filled : bytes ≠ [] := by decide
  /-- A segment has room for it behind the header. -/
  short : bytes.length ≤ 65458 := by decide

namespace PacketSlice

/-- The segment for the slice at `offset` of a packet of `full` bytes. -/
def payload (full offset : Nat) (slice : PacketSlice) : Bytes :=
  extendedXmpHeader ++ (slice.identifier.toList ++
    (Bytes.toBigEndian 4 full ++ (Bytes.toBigEndian 4 offset ++ slice.bytes)))

theorem payload_short (full offset : Nat) (slice : PacketSlice) :
    (slice.payload full offset).length ≤ 65533 := by
  have header : extendedXmpHeader.length = 35 := by decide
  have short := slice.short
  simp only [payload, List.length_append, Vector.length_toList, Bytes.length_toBigEndian, header]
  omega

def item (full offset : Nat) (slice : PacketSlice) : Item :=
  .segment { value := packetCode } {
    bytes := slice.payload full offset
    short := slice.payload_short full offset
    sized := fun frame => absurd frame (by decide) }

end PacketSlice

/-- The items with the slices of a packet of `full` bytes, from `offset` on. -/
def packetItems (full : Nat) : (offset : Nat) → List PacketSlice → List Item
  | _, [] => []
  | offset, slice :: rest =>
    slice.item full offset :: packetItems full (offset + slice.bytes.length) rest

def packetChunks : (offset : Nat) → List PacketSlice → List Chunk
  | _, [] => []
  | offset, slice :: rest =>
    ⟨offset, slice.bytes⟩ :: packetChunks (offset + slice.bytes.length) rest

/-- A slice of a color profile, with its place in the sequence and the number of slices that
its segment states. -/
structure ProfileSlice where
  sequence : UInt8
  count : UInt8
  bytes : Bytes
  short : bytes.length ≤ 65519 := by decide

namespace ProfileSlice

def payload (slice : ProfileSlice) : Bytes :=
  iccHeader ++ slice.sequence :: slice.count :: slice.bytes

theorem payload_short (slice : ProfileSlice) : slice.payload.length ≤ 65533 := by
  have header : iccHeader.length = 12 := by decide
  have short := slice.short
  simp only [payload, List.length_append, List.length_cons, header]
  omega

def item (slice : ProfileSlice) : Item :=
  .segment { value := profileCode } {
    bytes := slice.payload
    short := slice.payload_short
    sized := fun frame => absurd frame (by decide) }

def chunk (slice : ProfileSlice) : Chunk := ⟨slice.sequence.toNat, slice.bytes⟩

end ProfileSlice

theorem ProfileSlice.profile?_item (slice : ProfileSlice) : slice.item.profile? = some slice.chunk := by
  have starts : Bytes.after? iccHeader slice.payload =
      .some (slice.sequence :: slice.count :: slice.bytes) := Bytes.after?_eq_some_iff.mpr rfl
  show profileChunk? slice.payload = _
  rw [profileChunk?, starts]
  rfl

theorem PacketSlice.extended?_item {full offset : Nat} (slice : PacketSlice)
    (inside : offset + slice.bytes.length ≤ full) (fits : full < 256 ^ 4) :
    (slice.item full offset).extended? = some (⟨offset, slice.bytes⟩, full) := by
  have four (n : Nat) : (Bytes.toBigEndian 4 n).length = 4 := Bytes.length_toBigEndian 4 n
  have name : slice.identifier.toList.length = 32 := Vector.length_toList
  let rest : Bytes := slice.identifier.toList ++
    (Bytes.toBigEndian 4 full ++ (Bytes.toBigEndian 4 offset ++ slice.bytes))
  let named : Bytes := slice.identifier.toList ++ Bytes.toBigEndian 4 full
  have lengths : named.length = 36 := by rw [List.length_append, name, four]
  have starts : Bytes.after? extendedXmpHeader (slice.payload full offset) = some rest :=
    Bytes.after?_eq_some_iff.mpr rfl
  have apart : rest = named ++ (Bytes.toBigEndian 4 offset ++ slice.bytes) :=
    (List.append_assoc _ _ _).symm
  have first : Bytes.slice? rest 32 4 = some (Bytes.toBigEndian 4 full) :=
    Bytes.slice?_append name (four full) (by decide)
  have second : Bytes.slice? rest 36 4 = some (Bytes.toBigEndian 4 offset) := by
    rw [apart]
    exact Bytes.slice?_append lengths (four offset) (by decide)
  have part : rest.drop 40 = slice.bytes := by
    rw [apart, ← List.append_assoc]
    exact List.drop_left' (by rw [List.length_append, lengths, four])
  have near : offset < 256 ^ 4 := by omega
  show extendedChunk? (slice.payload full offset) = _
  simp only [extendedChunk?, starts, first, second, part, Option.bind_eq_bind, Option.bind_some,
    Bytes.ofBigEndian_toBigEndian fits, Bytes.ofBigEndian_toBigEndian near, if_pos inside]

/-- Items that tell nothing of a kind may stand anywhere between those that do. -/
theorem filterMap_mixed {α : Type} {told? : Item → Option α} {items written others : List Item}
    (mixed : items.Perm (written ++ others)) (foreign : ∀ item ∈ others, told? item = none) :
    (items.filterMap told?).Perm (written.filterMap told?) := by
  have told := mixed.filterMap told?
  rwa [List.filterMap_append, List.filterMap_eq_nil_iff.mpr foreign, List.append_nil] at told

theorem filterMap_profileItems (slices : List ProfileSlice) :
    (slices.map ProfileSlice.item).filterMap Item.profile? = slices.map ProfileSlice.chunk := by
  have told : Item.profile? ∘ ProfileSlice.item = some ∘ ProfileSlice.chunk :=
    funext ProfileSlice.profile?_item
  rw [List.filterMap_map, told, List.filterMap_eq_map]

theorem filterMap_packetItems {full offset : Nat} {slices : List PacketSlice}
    (inside : offset + (slices.flatMap PacketSlice.bytes).length ≤ full) (fits : full < 256 ^ 4) :
    (packetItems full offset slices).filterMap Item.extended? =
      (packetChunks offset slices).map (·, full) := by
  induction slices generalizing offset with
  | nil => rfl
  | cons slice rest ih =>
    rw [List.flatMap_cons, List.length_append] at inside
    rw [packetItems, List.filterMap_cons, slice.extended?_item (by omega) fits, packetChunks,
      List.map_cons, ih (by omega)]

theorem flatMap_packetChunks (offset : Nat) (slices : List PacketSlice) :
    (packetChunks offset slices).flatMap Chunk.bytes = slices.flatMap PacketSlice.bytes := by
  induction slices generalizing offset with
  | nil => rfl
  | cons slice rest ih => rw [packetChunks, List.flatMap_cons, ih, List.flatMap_cons]

theorem packetChunks_tiles (offset : Nat) (slices : List PacketSlice) :
    Tiles offset (packetChunks offset slices)
      (offset + (slices.flatMap PacketSlice.bytes).length) := by
  induction slices generalizing offset with
  | nil => exact .nil
  | cons slice rest ih =>
    rw [List.flatMap_cons, List.length_append, ← Nat.add_assoc]
    exact .cons rfl (ih _)

theorem packetChunks_increasing (offset : Nat) (slices : List PacketSlice) :
    (packetChunks offset slices).Pairwise fun a b => a.key < b.key := by
  induction slices generalizing offset with
  | nil => exact .nil
  | cons slice rest ih =>
    refine .cons (fun chunk among => ?_) (ih _)
    have behind := (packetChunks_tiles _ rest).behind chunk among
    have some := List.length_pos_iff.mpr slice.filled
    show offset < chunk.key
    omega

/-- A packet in slices is put together from their chunks, in whatever order they came. -/
theorem assembleExtended?_slices {chunks : List Chunk} {slices : List PacketSlice} {packet : Bytes}
    (perm : chunks.Perm (packetChunks 0 slices))
    (sliced : slices.flatMap PacketSlice.bytes = packet) :
    assembleExtended? chunks packet.length = some packet := by
  have received : (chunks.flatMap Chunk.bytes).length = packet.length := by
    rw [(perm.flatMap_right Chunk.bytes).length_eq, flatMap_packetChunks, sliced]
  have ordered : Chunk.sorted chunks = packetChunks 0 slices :=
    Chunk.sorted_eq perm (packetChunks_increasing 0 slices)
  have placed : (packetChunks 0 slices).foldl place [] = packet := by
    rw [(packetChunks_tiles 0 slices).foldl_place rfl, flatMap_packetChunks, sliced,
      List.nil_append]
  rw [assembleExtended?, if_neg (Nat.not_lt.mpr received.ge), ordered, placed]

/-- All that items tell of a packet in slices are its chunks, each with the packet's length. -/
theorem extended_mixed {items others : List Item} {slices : List PacketSlice} {full : Nat}
    (inside : (slices.flatMap PacketSlice.bytes).length ≤ full) (fits : full < 256 ^ 4)
    (mixed : items.Perm (packetItems full 0 slices ++ others))
    (foreign : ∀ item ∈ others, item.extended? = none) :
    (items.filterMap Item.extended?).Perm ((packetChunks 0 slices).map (·, full)) := by
  rw [← filterMap_packetItems (by rwa [Nat.zero_add]) fits]
  exact filterMap_mixed mixed foreign

theorem Stream.record_slicedPacket {stream : Stream} {slices : List PacketSlice}
    {others : List Item} {packet : Bytes} (sliced : slices.flatMap PacketSlice.bytes = packet)
    (filled : packet ≠ []) (fits : packet.length < 256 ^ 4)
    (mixed : (stream.items.map Prod.snd).Perm (packetItems packet.length 0 slices ++ others))
    (foreign : ∀ item ∈ others, item.extended? = none) :
    stream.record.extendedXmp = Xmp.rdfOfBytes packet := by
  let accepted := (stream.items.map Prod.snd).filterMap Item.extended?
  have told : accepted.Perm ((packetChunks 0 slices).map (·, packet.length)) :=
    extended_mixed (sliced ▸ Nat.le_refl _) fits mixed foreign
  have chunks : (accepted.map Prod.fst).Perm (packetChunks 0 slices) := by
    have firsts := told.map Prod.fst
    rwa [List.map_map, List.map_id''] at firsts
    exact fun _ => rfl
  have some : accepted.map Prod.fst ≠ [] := by
    intro none
    have empty : packetChunks 0 slices = [] := List.nil_perm.mp (none ▸ chunks)
    refine filled ?_
    rw [← sliced, ← flatMap_packetChunks 0, empty]
    rfl
  have declared : (accepted.map Prod.snd).foldl max 0 = packet.length := by
    refine foldl_max_eq (fun length among => ?_) (fun none => some ?_)
    · obtain ⟨_, member, rfl⟩ := List.mem_map.mp among
      obtain ⟨_, _, rfl⟩ := List.mem_map.mp (told.mem_iff.mp member)
      rfl
    · rw [List.map_eq_nil_iff.mp none, List.map_nil]
  have assembled : assembleExtended? (accepted.map Prod.fst)
      ((accepted.map Prod.snd).foldl max 0) = .some packet := by
    rw [declared, assembleExtended?_slices chunks sliced]
  exact (Progress.finish_packet some).trans (congrArg (·.bind Xmp.rdfOfBytes) assembled)

/-- However the chunks of a packet are ordered and whatever stands between them, the packet
is put together again. -/
theorem read_slicedPacket {stream : Stream} {slices : List PacketSlice} {others : List Item}
    {packet : Bytes} (sliced : slices.flatMap PacketSlice.bytes = packet) (filled : packet ≠ [])
    (fits : packet.length < 256 ^ 4)
    (mixed : (stream.items.map Prod.snd).Perm (packetItems packet.length 0 slices ++ others))
    (foreign : ∀ item ∈ others, item.extended? = none) (trailing : Bytes)
    (near : stream.encode.length ≤ Read.maxPosition) :
    ∃ record, read.onBytes (stream.encode ++ trailing) = (.ok record, stream.encode.length) ∧
      record.extendedXmp = Xmp.rdfOfBytes packet :=
  ⟨_, read_segments stream trailing near,
    Stream.record_slicedPacket sliced filled fits mixed foreign⟩

def packetHalves : List PacketSlice := [
  { identifier := .replicate 32 0x41, bytes := Bytes.ofText "<rdf:RDF><" },
  { identifier := .replicate 32 0x42, bytes := Bytes.ofText "/rdf:RDF>" }]

/-- Segments with another header, and with no room for a slice behind the header. -/
def packetNeighbors : List Item := [
  .segment { value := packetCode } { bytes := exifHeader ++ [0x4D, 0x4D] },
  .segment { value := packetCode } { bytes := extendedXmpHeader ++ [0x41, 0x41] }]

/-- The last slice comes first, with a neighbor behind each. -/
def shuffledPacket : Stream where
  items := ((packetItems 19 0 packetHalves).reverse.zip packetNeighbors).flatMap
    fun (slice, neighbor) => [(0, slice), (2, neighbor)]
  fill := 0
  closing := .scan

theorem read_slicedPacket_shuffled :
    packetHalves.flatMap PacketSlice.bytes = Bytes.ofText "<rdf:RDF></rdf:RDF>" ∧
    (shuffledPacket.items.map Prod.snd).Perm (packetItems 19 0 packetHalves ++ packetNeighbors) ∧
    (∀ item ∈ packetNeighbors, item.extended? = none) ∧
    shuffledPacket.encode.length ≤ Read.maxPosition ∧
    ∃ record, read.onBytes (shuffledPacket.encode ++ [0xFF]) =
        (.ok record, shuffledPacket.encode.length) ∧
      record.extendedXmp = some "<rdf:RDF></rdf:RDF>" := by
  have sliced : packetHalves.flatMap PacketSlice.bytes = Bytes.ofText "<rdf:RDF></rdf:RDF>" := by
    decide +kernel
  have mixed : (shuffledPacket.items.map Prod.snd).Perm
      (packetItems 19 0 packetHalves ++ packetNeighbors) := by
    show ([_, _] ++ _ :: [_]).Perm (_ :: ([_, _] ++ [_]))
    exact List.perm_middle
  have foreign : ∀ item ∈ packetNeighbors, item.extended? = none :=
    List.forall_mem_cons.mpr ⟨by decide +kernel, List.forall_mem_singleton.mpr (by decide +kernel)⟩
  have near : shuffledPacket.encode.length ≤ Read.maxPosition := by decide +kernel
  obtain ⟨record, result, told⟩ :=
    read_slicedPacket sliced (by decide +kernel) (by decide +kernel) mixed foreign [0xFF] near
  have packet : Xmp.rdfOfBytes (Bytes.ofText "<rdf:RDF></rdf:RDF>") = some "<rdf:RDF></rdf:RDF>" := by
    decide +kernel
  exact ⟨sliced, mixed, foreign, near, record, result, told.trans packet⟩

theorem Stream.record_slicedProfile {stream : Stream} {slices : List ProfileSlice}
    {others : List Item} (filled : slices ≠ [])
    (increasing : slices.Pairwise fun a b => a.sequence < b.sequence)
    (mixed : (stream.items.map Prod.snd).Perm (slices.map ProfileSlice.item ++ others))
    (foreign : ∀ item ∈ others, item.profile? = none) :
    stream.record.iccProfile = some (slices.flatMap ProfileSlice.bytes) := by
  let chunks := (stream.items.map Prod.snd).filterMap Item.profile?
  have told : chunks.Perm (slices.map ProfileSlice.chunk) := by
    rw [← filterMap_profileItems]
    exact filterMap_mixed mixed foreign
  have keys : (slices.map ProfileSlice.chunk).Pairwise fun a b => a.key < b.key :=
    List.pairwise_map.mpr increasing
  have some : chunks ≠ [] := by
    intro none
    have empty := List.nil_perm.mp (none ▸ told)
    exact filled (List.map_eq_nil_iff.mp empty)
  have ordered : (Chunk.sorted chunks).flatMap Chunk.bytes = slices.flatMap ProfileSlice.bytes := by
    rw [Chunk.sorted_eq told keys, List.flatMap_map]
    rfl
  exact (Progress.finish_profile some).trans (congrArg Option.some ordered)

theorem Stream.record_profile_eq_none_iff (stream : Stream) :
    stream.record.iccProfile = none ↔
      ∀ item ∈ stream.items.map Prod.snd, item.profile? = none :=
  Progress.finish_profile_eq_none_iff.trans List.filterMap_eq_nil_iff

/-- The profile is what the slices hold together, by increasing sequence numbers, whatever
order they come in and whatever stands between them. On any data that are read, there is
none exactly if no segment up to the end of the walk has a slice. -/
theorem read_slicedProfile :
    (∀ {stream : Stream} {slices : List ProfileSlice} {others : List Item}, slices ≠ [] →
      (slices.Pairwise fun a b => a.sequence < b.sequence) →
      (stream.items.map Prod.snd).Perm (slices.map ProfileSlice.item ++ others) →
      (∀ item ∈ others, item.profile? = none) → stream.encode.length ≤ Read.maxPosition →
      ∀ trailing, ∃ record,
        read.onBytes (stream.encode ++ trailing) = (.ok record, stream.encode.length) ∧
          record.iccProfile = some (slices.flatMap ProfileSlice.bytes)) ∧
    ∀ {data : Bytes} {record : Record} {stop : Nat}, read.onBytes data = (.ok record, stop) →
      (∃ stream : Stream, stream.encode = data.take stop) ∧
        ∀ stream : Stream, stream.encode = data.take stop →
          (record.iccProfile = none ↔ ∀ item ∈ stream.items.map Prod.snd, item.profile? = none) := by
  constructor
  · intro stream slices others filled increasing mixed foreign near trailing
    exact ⟨_, read_segments stream trailing near,
      Stream.record_slicedProfile filled increasing mixed foreign⟩
  · intro data record stop result
    obtain ⟨stream, written, -⟩ := read_ok result
    refine ⟨⟨stream, written⟩, fun stream written => ?_⟩
    rw [read_record result written]
    exact stream.record_profile_eq_none_iff

def profileHalves : List ProfileSlice := [
  { sequence := 1, count := 2, bytes := [0x68, 0x65] },
  { sequence := 7, count := 2, bytes := [0x6C, 0x70] }]

/-- Segments without the header, and with no room for both numbers behind it. -/
def profileNeighbors : List Item := [
  .segment { value := profileCode } { bytes := [0x4D, 0x50, 0x46, 0] },
  .segment { value := profileCode } { bytes := iccHeader ++ [1] }]

/-- The last slice comes first, with a neighbor behind each. -/
def shuffledProfile : Stream where
  items := ((profileHalves.map ProfileSlice.item).reverse.zip profileNeighbors).flatMap
    fun (slice, neighbor) => [(0, slice), (1, neighbor)]
  fill := 3
  closing := .ending

theorem read_slicedProfile_shuffled :
    (profileHalves.Pairwise fun a b => a.sequence < b.sequence) ∧
    (shuffledProfile.items.map Prod.snd).Perm
      (profileHalves.map ProfileSlice.item ++ profileNeighbors) ∧
    (∀ item ∈ profileNeighbors, item.profile? = none) ∧
    shuffledProfile.encode.length ≤ Read.maxPosition ∧
    ∃ record, read.onBytes (shuffledProfile.encode ++ [0xFF]) =
        (.ok record, shuffledProfile.encode.length) ∧
      record.iccProfile = some [0x68, 0x65, 0x6C, 0x70] ∧
      ∃ stream : Stream, stream.encode = shuffledProfile.encode ∧
        ¬ ∀ item ∈ stream.items.map Prod.snd, item.profile? = none := by
  have increasing : profileHalves.Pairwise fun a b => a.sequence < b.sequence := by decide
  have mixed : (shuffledProfile.items.map Prod.snd).Perm
      (profileHalves.map ProfileSlice.item ++ profileNeighbors) := by
    show ([_, _] ++ _ :: [_]).Perm (_ :: ([_, _] ++ [_]))
    exact List.perm_middle
  have foreign : ∀ item ∈ profileNeighbors, item.profile? = none :=
    List.forall_mem_cons.mpr ⟨by decide +kernel, List.forall_mem_singleton.mpr (by decide +kernel)⟩
  have near : shuffledProfile.encode.length ≤ Read.maxPosition := by decide +kernel
  obtain ⟨record, result, profile⟩ :=
    read_slicedProfile.1 (List.cons_ne_nil _ _) increasing mixed foreign near [0xFF]
  obtain ⟨⟨stream, written⟩, absent⟩ := read_slicedProfile.2 result
  refine ⟨increasing, mixed, foreign, near, record, result, profile, stream, ?_, fun none => ?_⟩
  · rw [written, List.take_left]
  · rw [(absent stream written).mpr none] at profile
    cases profile

end ImageDerivative.Jpeg
