import ImageDerivative.Proofs.Container.JpegSlices

/-! Extended packets of which not all may be there. Chunks count as complete when they have
as many bytes together as the longest packet that one of them declares. What comes twice is
counted twice, so chunks that overlap may leave offsets for which there is no byte. Chunks
that do not overlap leave none. -/
namespace ImageDerivative.Jpeg

/-- An accepted chunk lies within the length that it declares. -/
theorem extendedChunk?_within {payload : Bytes} {chunk : Chunk} {full : Nat}
    (found : extendedChunk? payload = some (chunk, full)) : chunk.stop ≤ full := by
  simp only [extendedChunk?, Option.bind_eq_bind, Option.bind_eq_some_iff] at found
  obtain ⟨rest, -, length, -, offset, -, found⟩ := found
  split at found
  · next inside =>
    cases found
    exact inside
  · cases found

/-- All accepted chunks lie within the greatest length that is declared. -/
theorem gathered_within (items : List Item) :
    ∀ chunk ∈ (gathered items).extended, chunk.stop ≤ (gathered items).extendedLength := by
  intro chunk among
  obtain ⟨⟨_, full⟩, told, rfl⟩ := List.mem_map.mp among
  obtain ⟨item, -, accepted⟩ := List.mem_filterMap.mp told
  obtain ⟨payload, -, found⟩ := Option.bind_eq_some_iff.mp accepted
  have declared : full ∈ (items.filterMap Item.extended?).map Prod.snd :=
    List.mem_map.mpr ⟨_, told, rfl⟩
  exact Nat.le_trans (extendedChunk?_within found) (le_foldl_max declared)

/-- What is known of a packet that is reported: as many bytes came as were declared. -/
theorem Progress.finish_reported {p : Progress} {text : String}
    (reported : p.finish.extendedXmp = some text) :
    p.extendedLength ≤ (p.extended.flatMap Chunk.bytes).length ∧
      Xmp.rdfOfBytes ((Chunk.sorted p.extended).foldl place []) = some text := by
  have found : (if p.extended.isEmpty then none
      else (assembleExtended? p.extended p.extendedLength).bind Xmp.rdfOfBytes) = some text :=
    reported
  split at found
  · cases found
  · obtain ⟨packet, assembled, told⟩ := Option.bind_eq_some_iff.mp found
    rw [assembleExtended?] at assembled
    split at assembled
    · cases assembled
    · next enough =>
      cases assembled
      exact ⟨Nat.not_lt.mp enough, told⟩

/-- Where the chunks of a reported packet do not overlap they tile its declared length. -/
theorem tiles_of_reported {p : Progress} {text : String}
    (reported : p.finish.extendedXmp = some text)
    (within : ∀ chunk ∈ p.extended, chunk.stop ≤ p.extendedLength)
    (apart : (Chunk.sorted p.extended).Pairwise fun a b => a.stop ≤ b.key) :
    Tiles 0 (Chunk.sorted p.extended) p.extendedLength := by
  have perm := Chunk.sorted_perm p.extended
  refine tiles_of_ordered apart (fun _ _ => Nat.zero_le _)
    (fun chunk among => within chunk (perm.mem_iff.mp among)) (Nat.zero_le _) ?_
  rw [Nat.zero_add, (perm.flatMap_right Chunk.bytes).length_eq]
  exact (Progress.finish_reported reported).1

/-- The chunks of a reported packet have a byte for every offset exactly if they have enough
bytes when those of one offset count once. Where, in the order of their offsets, none begins
before the one before it ends, they do, and the packet is what they hold, one behind the
other. -/
theorem read_covered_iff {data : Bytes} {record : Record} {stop : Nat} {text : String}
    (result : read.onBytes data = (.ok record, stop)) (reported : record.extendedXmp = some text) :
    (∃ stream : Stream, stream.encode = data.take stop) ∧
    ∀ stream : Stream, stream.encode = data.take stop →
      let told := gathered (stream.items.map Prod.snd)
      (Covered told.extended told.extendedLength ↔
        told.extendedLength ≤ (told.extended.flatMap Chunk.offsets).dedup.length) ∧
      (((Chunk.sorted told.extended).Pairwise fun a b => a.stop ≤ b.key) →
        let packet := (Chunk.sorted told.extended).flatMap Chunk.bytes
        Covered told.extended told.extendedLength ∧ packet.length = told.extendedLength ∧
          Xmp.rdfOfBytes packet = some text) := by
  obtain ⟨stream, written, -⟩ := read_ok result
  refine ⟨⟨stream, written⟩, fun stream written => ?_⟩
  intro told
  have within : ∀ chunk ∈ told.extended, chunk.stop ≤ told.extendedLength := gathered_within _
  refine ⟨covered_iff within, fun apart => ?_⟩
  have known : told.finish.extendedXmp = some text := by
    rw [← reported, read_record result written]
    rfl
  have tiles := tiles_of_reported known within apart
  have assembled := (Progress.finish_reported known).2
  rw [tiles.foldl_place rfl, List.nil_append] at assembled
  refine ⟨fun offset before => ?_, ?_, assembled⟩
  · obtain ⟨chunk, among, covers⟩ := tiles.covered (Nat.zero_le _) before
    exact ⟨chunk, (Chunk.sorted_perm _).mem_iff.mp among, covers⟩
  · exact (tiles.stop_eq.trans (Nat.zero_add _)).symm

def packetName : Vector UInt8 32 := .replicate 32 0x41

def overlapping : Stream where
  items := [
    (0, PacketSlice.item 19 0 { identifier := packetName, bytes := Bytes.ofText "<rdf:RDF></r" }),
    (0, PacketSlice.item 19 9 { identifier := packetName, bytes := Bytes.ofText "</rdf:RDF>" })]
  fill := 0
  closing := .ending

theorem read_covered_iff_overlapping :
    read.onBytes overlapping.encode =
      (.ok { extendedXmp := some "<rdf:RDF></rdf:RDF>" }, overlapping.encode.length) ∧
    (gathered (overlapping.items.map Prod.snd)).extendedLength = 19 ∧
    Covered (gathered (overlapping.items.map Prod.snd)).extended 19 := by
  have told : overlapping.record = { extendedXmp := some "<rdf:RDF></rdf:RDF>" } := by cbv
  have result := read_segments overlapping [] (by decide +kernel)
  rw [List.append_nil, told] at result
  have length : (gathered (overlapping.items.map Prod.snd)).extendedLength = 19 := by
    decide +kernel
  have written : overlapping.encode = overlapping.encode.take overlapping.encode.length :=
    List.take_length.symm
  have covered := ((read_covered_iff result rfl).2 overlapping written).1.mpr (by decide +kernel)
  exact ⟨result, length, length ▸ covered⟩

/-- A chunk that comes twice, and one behind a gap of one byte. -/
def patched : Stream where
  items := [
    (0, PacketSlice.item 20 0 { identifier := packetName, bytes := Bytes.ofText "<rdf:RDF>" }),
    (0, PacketSlice.item 20 0 { identifier := packetName, bytes := Bytes.ofText "<rdf:RDF>" }),
    (0, PacketSlice.item 20 10 { identifier := packetName, bytes := Bytes.ofText "</rdf:RDF>" })]
  fill := 0
  closing := .ending

/-- No chunk has the byte in the gap, and the packet is reported with a blank there. -/
theorem read_patched :
    read.onBytes patched.encode =
      (.ok { extendedXmp := some "<rdf:RDF> </rdf:RDF>" }, patched.encode.length) ∧
    (gathered (patched.items.map Prod.snd)).extendedLength = 20 ∧
    ¬ Covered (gathered (patched.items.map Prod.snd)).extended 20 := by
  have told : patched.record = { extendedXmp := some "<rdf:RDF> </rdf:RDF>" } := by cbv
  have result := read_segments patched [] (by decide +kernel)
  rw [List.append_nil, told] at result
  have gap : ¬ ∃ chunk ∈ (gathered (patched.items.map Prod.snd)).extended, 9 ∈ chunk.offsets := by
    decide +kernel
  exact ⟨result, by decide +kernel, fun covered => gap (covered 9 (by decide))⟩

end ImageDerivative.Jpeg
