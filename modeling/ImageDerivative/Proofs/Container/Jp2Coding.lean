import ImageDerivative.Proofs.Container.Jp2Stream

/-! Main headers that state the number of decompositions for one component and for all that
nothing is stated for. Both kinds of segment leave their number in the same place, so that
of all of them the last one counts, and a component's number holds only where no other
default follows it. -/
namespace ImageDerivative.Jp2

/-- The bytes that name a component, where a size states so many. -/
def nameWidth (components : Nat) : Nat := if components < 257 then 1 else 2

/-- A segment of the main header behind a size of so many components. -/
inductive HeaderSegment (components : Nat) where
  /-- The coding of one component. Behind its name stand a style and the number of
  decompositions. -/
  | component (payload : Bytes) (short : payload.length ≤ 65533)
      (long : nameWidth components + 2 ≤ payload.length)
  | plain (segment : Segment)

namespace HeaderSegment

variable {components : Nat}

def encode : HeaderSegment components → Bytes
  | component payload _ _ =>
    [0xFF, 0x53] ++ (Bytes.toBigEndian 2 (payload.length + 2) ++ payload)
  | plain segment => segment.encode

def componentLevels? : HeaderSegment components → Option Nat
  | component payload _ _ => payload[nameWidth components + 1]?.map UInt8.toNat
  | plain _ => none

/-- The number of decompositions where nothing else is stated for a component. -/
def defaultLevels? : HeaderSegment components → Option Nat
  | component _ _ _ => none
  | plain segment => segment.levels?

def levels? (segment : HeaderSegment components) : Option Nat :=
  segment.componentLevels?.or segment.defaultLevels?

/-- What a segment leaves of a record. -/
def tell (record : Record) (segment : HeaderSegment components) : Record :=
  { record with decompositionLevels := segment.levels?.getD record.decompositionLevels }

end HeaderSegment

/-- The last number that one of the segments states. -/
def lastLevels? {components : Nat} (stated? : HeaderSegment components → Option Nat)
    (segments : List (HeaderSegment components)) : Option Nat :=
  (segments.filterMap stated?).getLast?

structure MainHeader where
  size : SizeSegment
  segments : List (HeaderSegment size.components.toNat)
  closing : Closing

def MainHeader.encode (header : MainHeader) : Bytes :=
  [0xFF, 0x4F] ++ ([0xFF, 0x51] ++ (Bytes.toBigEndian 2 (header.size.encode.length + 2) ++
    header.size.encode)) ++ header.segments.flatMap HeaderSegment.encode ++
    [0xFF, header.closing.code]

theorem walkMarker_headerSegment {components : Nat} {record : Record}
    (stated : record.numComponents = components) (segment : HeaderSegment components) :
    Reads (walkMarker record) segment.encode (.inl (segment.tell record)) := by
  subst stated
  cases segment with
  | plain segment => exact walkMarker_segment record segment
  | component payload short long =>
    obtain ⟨levels, found⟩ : ∃ levels, payload[componentWidth record + 1]? = some levels :=
      ⟨_, List.getElem?_eq_getElem (Nat.lt_of_succ_le long)⟩
    have told : (HeaderSegment.component payload short long).levels? = some levels.toNat :=
      congrArg (fun stated : Option UInt8 => (stated.map UInt8.toNat).or none) found
    refine (Reads.field rfl).lift.bind ((readSegment_reads short).bind_nil ?_)
    rw [found, HeaderSegment.tell, told]
    exact .pure _

theorem HeaderSegment.encode_ne_nil {components : Nat} (segment : HeaderSegment components) :
    segment.encode ≠ [] := by
  cases segment with
  | component => exact List.cons_ne_nil _ _
  | plain => exact List.cons_ne_nil _ _

theorem headerSegments_pass {components : Nat} (segments : List (HeaderSegment components))
    {record : Record} (stated : record.numComponents = components) :
    Walks walkMarker (segments.flatMap HeaderSegment.encode) record
      (segments.foldl HeaderSegment.tell record) := by
  induction segments generalizing record with
  | nil => exact .none record
  | cons segment rest ih =>
    have turn := walkMarker_headerSegment stated segment
    exact (Walks.one turn segment.encode_ne_nil).append (ih stated)

/-- The last segment that states a number counts, whichever kind it is of. -/
theorem foldl_tell_headerSegments {components : Nat} (segments : List (HeaderSegment components))
    (record : Record) :
    segments.foldl HeaderSegment.tell record = { record with
      decompositionLevels :=
        (lastLevels? HeaderSegment.levels? segments).getD record.decompositionLevels } := by
  induction segments generalizing record with
  | nil => rfl
  | cons segment rest ih =>
    rw [List.foldl_cons, ih, lastLevels?, lastLevels?, List.filterMap_cons, HeaderSegment.tell]
    cases segment.levels? with
    | none => rfl
    | some levels => rw [List.getLast?_cons, Option.getD_some, Option.getD_some]

theorem MainHeader.reads (header : MainHeader) (record : Record) :
    Reads (readCodestream record) header.encode { header.size.tell record with
      decompositionLevels :=
        (lastLevels? HeaderSegment.levels? header.segments).getD record.decompositionLevels } := by
  have start := Walks.one (walkMarker_start record) (List.cons_ne_nil _ _)
  have size := Walks.one (walkMarker_size record header.size) (List.cons_ne_nil _ _)
  have stated : (header.size.tell record).numComponents = header.size.components.toNat := rfl
  have segments := headerSegments_pass header.segments stated
  rw [foldl_tell_headerSegments] at segments
  exact ((start.append size).append segments).finish (walkMarker_closing _ header.closing)

/-- Behind a component's number, the number of a later default takes its place, and so the
last component's number is what remains exactly if no such default differs from it. -/
theorem readCodestream_levels_iff (record : Record) {header : MainHeader}
    {before after : List (HeaderSegment header.size.components.toNat)}
    {last : HeaderSegment header.size.components.toNat} {levels : Nat}
    (parts : header.segments = before ++ last :: after)
    (component : last.componentLevels? = some levels)
    (final : ∀ segment ∈ after, segment.componentLevels? = none) :
    ∃ result, Reads (readCodestream record) header.encode result ∧
      (result.decompositionLevels = levels ↔
        ∀ other, lastLevels? HeaderSegment.defaultLevels? after = some other → other = levels) := by
  refine ⟨_, header.reads record, ?_⟩
  have stated : last.levels? = some levels := by
    rw [HeaderSegment.levels?, component, Option.some_or]
  have defaults : after.filterMap HeaderSegment.levels? =
      after.filterMap HeaderSegment.defaultLevels? := by
    refine List.filterMap_congr fun segment among => ?_
    rw [HeaderSegment.levels?, final segment among, Option.none_or]
  have remaining : lastLevels? HeaderSegment.levels? header.segments =
      some ((lastLevels? HeaderSegment.defaultLevels? after).getD levels) := by
    rw [lastLevels?, parts, List.filterMap_append, List.filterMap_cons, stated, defaults,
      List.getLast?_append_of_ne_nil _ (List.cons_ne_nil _ _), List.getLast?_cons, lastLevels?]
  rw [remaining, Option.getD_some]
  cases lastLevels? HeaderSegment.defaultLevels? after with
  | none => simp
  | some other => simp

def smallSize (components : UInt16) : SizeSegment where
  capabilities := .replicate 2 0
  width := 8
  height := 8
  offset := .replicate 8 0
  tileWidth := 8
  tileHeight := 8
  tileOffset := .replicate 8 0
  components := components
  depth := 7
  rest := [2, 2]

/-- A default, the coding of a component whose name takes two bytes, and another segment. -/
def refined : MainHeader where
  size := smallSize 300
  segments := [
    .plain { code := codingCode, payload := [0, 0, 0, 1, 0, 5] },
    .component [1, 2, 0, 4] (by decide) (by decide),
    .plain { code := 0x5C, payload := [0xFF, 0x52] }]
  closing := .tile

theorem readCodestream_levels_iff_refined :
    ∃ result, Reads (readCodestream {}) refined.encode result ∧ result.decompositionLevels = 4 := by
  have parts : refined.segments =
      [.plain { code := codingCode, payload := [0, 0, 0, 1, 0, 5] }] ++
        .component [1, 2, 0, 4] (by decide) (by decide) ::
          [.plain { code := 0x5C, payload := [0xFF, 0x52] }] := rfl
  obtain ⟨result, reads, levels⟩ := readCodestream_levels_iff {} parts rfl
    (List.forall_mem_singleton.mpr rfl)
  exact ⟨result, reads, levels.mpr nofun⟩

def overridden : MainHeader where
  size := smallSize 1
  segments := [
    .component [0, 0, 3] (by decide) (by decide),
    .plain { code := codingCode, payload := [0, 0, 0, 1, 0, 5] }]
  closing := .ending

/-- The default counts although a component states its own number. -/
theorem read_overridden :
    lastLevels? HeaderSegment.componentLevels? overridden.segments = some 3 ∧
    lastLevels? HeaderSegment.defaultLevels? overridden.segments = some 5 ∧
    read.onBytes overridden.encode = (.ok ⟨8, 8, 8, 8, 1, 8, 5, none, none, none⟩, 64) :=
  ⟨rfl, rfl, by decide +kernel⟩

end ImageDerivative.Jp2
