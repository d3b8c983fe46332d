import ImageDerivative.Container.Info
import ImageDerivative.Proofs.Container.Delimited

/-! The first bytes of data tell which reader it is for, and the readers agree: each accepts
only what is announced as its format, and finds nothing foreign in what is. Two formats are
never announced at once, since no signature continues another. -/
namespace ImageDerivative

namespace Bytes

variable {bytes head other : Bytes}

theorem startsWith_iff : startsWith bytes head = true ↔ head <+: bytes := by
  simp only [startsWith, Option.isSome_iff_exists, after?_eq_some_iff]
  exact exists_congr fun rest => eq_comm

theorem startsWith_take {n : Nat} (short : head.length ≤ n) :
    startsWith (bytes.take n) head = startsWith bytes head := by
  rw [Bool.eq_iff_iff, startsWith_iff, startsWith_iff, List.prefix_take_iff]
  exact and_iff_left short

theorem startsWith_eq_false (starts : other <+: bytes) (apart : ¬ head <+: other ∧ ¬ other <+: head) :
    startsWith bytes head = false := by
  rw [Bool.eq_false_iff, ne_eq, startsWith_iff]
  intro also
  exact (List.prefix_or_prefix_of_prefix also starts).elim apart.1 apart.2

end Bytes

namespace Format

def GifStart (data : Bytes) : Prop := Bytes.ofText "GIF87a" <+: data ∨ Bytes.ofText "GIF89a" <+: data

def JpegStart (data : Bytes) : Prop := [0xFF, 0xD8, 0xFF] <+: data

def Jp2Start (data : Bytes) : Prop := jp2Signature <+: data ∨ codestreamSignature <+: data

theorem detect?_take (data : Bytes) : detect? (data.take sniffLength) = detect? data := by
  have webp : (data.take sniffLength).drop 8 = (data.drop 8).take 4 := List.drop_take
  have first {head : Bytes} (short : head.length ≤ sniffLength) :
      Bytes.startsWith (data.take sniffLength) head = data.startsWith head :=
    Bytes.startsWith_take short
  have second {head : Bytes} (short : head.length ≤ 4) :
      Bytes.startsWith ((data.drop 8).take 4) head = Bytes.startsWith (data.drop 8) head :=
    Bytes.startsWith_take short
  unfold detect?
  rw [webp, second (by decide)]
  iterate 9 rw [first (by decide)]

variable {data : Bytes}

theorem detect?_gif_iff : detect? data = some gif ↔ GifStart data := by
  unfold detect? GifStart
  simp only [Bool.or_eq_true, Bytes.startsWith_iff]
  split
  · next starts => exact iff_of_true rfl starts
  · next other =>
    refine iff_of_false (fun found => ?_) other
    split_ifs at found <;> cases found

theorem detect?_jpeg_iff : detect? data = some jpeg ↔ JpegStart data := by
  constructor
  · intro found
    unfold detect? at found
    split_ifs at found with _ starts
    · cases found
    · exact Bytes.startsWith_iff.mp starts
    all_goals cases found
  · intro starts
    have first : data.startsWith (Bytes.ofText "GIF87a") = false :=
      Bytes.startsWith_eq_false starts (by decide)
    have second : data.startsWith (Bytes.ofText "GIF89a") = false :=
      Bytes.startsWith_eq_false starts (by decide)
    have third : data.startsWith [0xFF, 0xD8, 0xFF] = true := Bytes.startsWith_iff.mpr starts
    simp [detect?, first, second, third]

theorem detect?_jpeg2000_iff : detect? data = some jpeg2000 ↔ Jp2Start data := by
  constructor
  · intro found
    unfold detect? at found
    split_ifs at found with _ _ starts
    · cases found
    · cases found
    · simpa only [Jp2Start, Bool.or_eq_true, Bytes.startsWith_iff] using starts
    all_goals cases found
  · intro starts
    have apart (head : Bytes) (box : ¬ head <+: jp2Signature ∧ ¬ jp2Signature <+: head)
        (bare : ¬ head <+: codestreamSignature ∧ ¬ codestreamSignature <+: head) :
        data.startsWith head = false := by
      cases starts with
      | inl signed => exact Bytes.startsWith_eq_false signed box
      | inr signed => exact Bytes.startsWith_eq_false signed bare
    have first := apart (Bytes.ofText "GIF87a") (by decide) (by decide)
    have second := apart (Bytes.ofText "GIF89a") (by decide) (by decide)
    have third := apart [0xFF, 0xD8, 0xFF] (by decide) (by decide)
    have fourth : (data.startsWith jp2Signature || data.startsWith codestreamSignature) = true := by
      simpa only [Jp2Start, Bool.or_eq_true, Bytes.startsWith_iff] using starts
    simp [detect?, first, second, third, fourth]

end Format

/-- The failure says that the data is of another format, or of a version not known. -/
def MetadataError.isForeign : MetadataError → Bool
  | invalidSignature _ _ | invalidVersion _ _ => true
  | _ => false

/-- The reader may fail, but finds nothing foreign. -/
def Read.Familiar {α : Type} (read : Read MetadataError α) : Prop :=
  ∀ ⦃c error d⦄, read c = .error error d → error.isForeign = false

namespace Read

variable {α β : Type}

namespace Familiar

theorem pure (a : α) : Familiar (pure a) := by
  intro c error d failed
  cases failed

theorem throw {error : MetadataError} (own : error.isForeign = false) :
    Familiar (throw error : Read MetadataError α) := by
  intro c failure d failed
  cases failed
  exact own

theorem bind {read : Read MetadataError α} {next : α → Read MetadataError β} (first : Familiar read)
    (last : ∀ a, Familiar (next a)) : Familiar (read >>= next) := by
  intro c error d failed
  rcases state_bind_eq_error.mp failed with begun | ⟨a, m, -, ended⟩
  · exact first begun
  · exact last a ended

theorem lift (read : Read ReadFailure α) : Familiar (liftM read : Read MetadataError α) := by
  intro c error d failed
  rw [Reads.lift_apply] at failed
  split at failed
  · cases failed
  · cases failed
    rfl

theorem walk {step : α → Read MetadataError (α ⊕ β)} (turns : ∀ a, Familiar (step a))
    (failure : ReadFailure) (a : α) : Familiar (walk step (.io failure) a) := by
  have repeated (bound : Nat) (a : α) :
      Familiar (repeatUpTo (MonadExcept.throw (MetadataError.io failure)) step bound a) := by
    induction bound generalizing a with
    | zero => exact throw rfl
    | succ bound ih =>
      refine (turns a).bind fun next => ?_
      cases next with
      | inl next => exact ih next
      | inr result => exact pure result
  exact fun c => repeated (c.remaining + 1) a (c := c)

end Familiar

variable {c d : Cursor}

theorem rest_of_field {width : Nat} {bytes : Bytes} (took : field width c = .ok bytes d) :
    bytes.length = width ∧ c.rest = bytes ++ d.rest := by
  rw [field_apply] at took
  split at took
  case isFalse => cases took
  next inside =>
    cases took
    have length : (c.rest.take width).length = width :=
      List.length_take_of_le (c.length_rest ▸ inside)
    exact ⟨length, (List.take_append_drop width c.rest).symm⟩

theorem rest_of_byte {b : UInt8} (took : byte c = .ok b d) : c.rest = b :: d.rest := by
  simp only [byte, bind, EStateM.bind, get, getThe, MonadStateOf.get, EStateM.get] at took
  cases ahead : c.rest with
  | nil =>
    rw [ahead] at took
    cases took
  | cons first rest =>
    rw [ahead] at took
    cases took
    simp only [Cursor.forward, ahead, List.drop_succ_cons, List.drop_zero]

/-- The reader accepts only data that begins as `start` says, and finds nothing foreign in
such data. -/
structure Knows (start : Bytes → Prop) (read : Read MetadataError α) : Prop where
  accepts : ∀ {data a last}, read (.ofBytes data) = .ok a last → start data
  own : ∀ {data error last}, read (.ofBytes data) = .error error last → start data →
    error.isForeign = false

end Read

open Read (Familiar Knows)

namespace Gif

/-- The signature and a version. -/
theorem start_iff {data : Bytes} : Format.GifStart data ↔ ∃ version tail : Bytes,
    (version = Bytes.ofText "87a" ∨ version = Bytes.ofText "89a") ∧
      data = Bytes.ofText "GIF" ++ (version ++ tail) := by
  have older : Bytes.ofText "GIF87a" = Bytes.ofText "GIF" ++ Bytes.ofText "87a" := by decide
  have newer : Bytes.ofText "GIF89a" = Bytes.ofText "GIF" ++ Bytes.ofText "89a" := by decide
  rw [Format.GifStart, older, newer]
  constructor
  · rintro (⟨tail, rfl⟩ | ⟨tail, rfl⟩)
    · exact ⟨_, tail, .inl rfl, List.append_assoc _ _ _⟩
    · exact ⟨_, tail, .inr rfl, List.append_assoc _ _ _⟩
  · rintro ⟨version, tail, rfl | rfl, rfl⟩
    · exact .inl ⟨tail, List.append_assoc _ _ _⟩
    · exact .inr ⟨tail, List.append_assoc _ _ _⟩

theorem readHeader_start {data : Bytes} {header : Record} {last : Cursor}
    (parsed : readHeader (.ofBytes data) = .ok header last) : Format.GifStart data := by
  obtain ⟨signature, c, took, parsed⟩ := state_bind_eq_ok.mp parsed
  split at parsed
  case isFalse => cases parsed
  next named =>
    obtain ⟨version, d, also, parsed⟩ := state_bind_eq_ok.mp parsed
    split at parsed
    case isFalse => cases parsed
    next known =>
      obtain ⟨-, front⟩ := Read.rest_of_field (Read.lift_ok took)
      obtain ⟨-, behind⟩ := Read.rest_of_field (Read.lift_ok also)
      refine start_iff.mpr ⟨version, d.rest, known, ?_⟩
      rw [← named, ← behind]
      exact front

theorem readHeader_own {data : Bytes} {error : MetadataError} {last : Cursor}
    (failed : readHeader (.ofBytes data) = .error error last) (starts : Format.GifStart data) :
    error.isForeign = false := by
  obtain ⟨version, tail, known, whole⟩ := start_iff.mp starts
  have three : version.length = 3 := by
    rcases known with rfl | rfl
    · decide
    · decide
  rcases state_bind_eq_error.mp failed with short | ⟨signature, c, took, failed⟩
  · exact Familiar.lift _ short
  obtain ⟨length, front⟩ := Read.rest_of_field (Read.lift_ok took)
  obtain ⟨rfl, ahead⟩ := List.append_inj (front.symm.trans whole) length
  rw [if_pos rfl] at failed
  rcases state_bind_eq_error.mp failed with short | ⟨found, d, also, failed⟩
  · exact Familiar.lift _ short
  obtain ⟨width, behind⟩ := Read.rest_of_field (Read.lift_ok also)
  obtain ⟨rfl, -⟩ := List.append_inj (behind.symm.trans ahead) (width.trans three.symm)
  rw [if_pos known] at failed
  exact Familiar.bind (.lift _) (fun _ => .bind (.lift _) fun _ => .bind (.lift _) fun _ =>
    .bind (.lift _) fun _ => .pure _) failed

theorem read_knows : Knows Format.GifStart read where
  accepts {data record last} ran := by
    unfold read at ran
    cases parsed : readHeader (.ofBytes data) with
    | error error d =>
      rw [parsed] at ran
      cases ran
    | ok header d => exact readHeader_start parsed
  own {data error last} failed starts := by
    unfold read at failed
    cases parsed : readHeader (.ofBytes data) with
    | error error d =>
      rw [parsed] at failed
      cases failed
      exact readHeader_own parsed starts
    | ok header d =>
      simp only [parsed] at failed
      split at failed
      · cases failed
      · cases failed
        rfl

end Gif

namespace Jpeg

theorem nextMarker_familiar : Familiar nextMarker := by
  refine .bind (.lift _) fun lead => ?_
  split
  · exact .walk (fun _ => .bind (.lift _) fun _ => .pure _) _ _
  · exact .throw rfl

theorem segmentLength_familiar : Familiar segmentLength := by
  refine .bind (.lift _) fun length => ?_
  split
  · exact .throw rfl
  · exact .pure _

theorem readSegment_familiar : Familiar readSegment :=
  segmentLength_familiar.bind fun _ => .lift _

theorem skipSegment_familiar : Familiar skipSegment :=
  segmentLength_familiar.bind fun _ => .lift _

theorem walkSegment_familiar (p : Progress) : Familiar (walkSegment p) := by
  refine nextMarker_familiar.bind fun code => ?_
  have kept (f : Bytes → Progress ⊕ Progress) : Familiar (do return f (← readSegment)) :=
    readSegment_familiar.bind fun _ => .pure _
  split
  · exact .pure _
  · exact .pure _
  · refine readSegment_familiar.bind fun segment => ?_
    split
    · exact .pure _
    · exact .throw rfl
  · exact kept _
  · exact kept _
  · exact kept _
  · exact kept _
  · exact skipSegment_familiar.bind fun _ => .pure _

/-- A marker begins with 0xFF, so a walk that ends well has found one. -/
theorem walk_start {p record : Progress} {c d : Cursor}
    (ran : Read.walk walkSegment (.io .stalled) p c = .ok record d) : ∃ rest, c.rest = 0xFF :: rest := by
  have repeated : repeatUpTo (throw (MetadataError.io .stalled)) walkSegment (c.remaining + 1) p c =
      .ok record d := ran
  obtain ⟨next, m, turned, -⟩ := state_bind_eq_ok.mp repeated
  obtain ⟨code, n, marked, -⟩ := state_bind_eq_ok.mp turned
  obtain ⟨lead, k, took, marked⟩ := state_bind_eq_ok.mp marked
  split at marked
  case isFalse => cases marked
  next led =>
    rw [← led]
    exact ⟨k.rest, Read.rest_of_byte (Read.lift_ok took)⟩

theorem read_knows : Knows Format.JpegStart read where
  accepts {data record last} ran := by
    obtain ⟨start, c, took, ran⟩ := state_bind_eq_ok.mp ran
    split at ran
    case isFalse => cases ran
    next named =>
      obtain ⟨p, d, walked, -⟩ := state_bind_eq_ok.mp ran
      obtain ⟨-, front⟩ := Read.rest_of_field (Read.lift_ok took)
      obtain ⟨rest, behind⟩ := walk_start walked
      have whole : data = start ++ c.rest := front
      rw [behind, named] at whole
      exact ⟨rest, whole.symm⟩
  own {data error last} failed starts := by
    obtain ⟨tail, whole⟩ := starts
    rcases state_bind_eq_error.mp failed with short | ⟨start, c, took, failed⟩
    · exact Familiar.lift _ short
    obtain ⟨length, front⟩ := Read.rest_of_field (Read.lift_ok took)
    have named : [0xFF, 0xD8] ++ (0xFF :: tail) = start ++ c.rest := whole.trans front
    obtain ⟨rfl, -⟩ := List.append_inj named length.symm
    rw [if_pos rfl] at failed
    exact Familiar.bind (.walk walkSegment_familiar _ _) (fun _ => .pure _) failed

end Jpeg

namespace Jp2

theorem segmentLength_familiar : Familiar segmentLength := by
  refine .bind (.lift _) fun length => ?_
  split
  · exact .throw rfl
  · exact .pure _

theorem readSegment_familiar : Familiar readSegment :=
  segmentLength_familiar.bind fun _ => .lift _

theorem walkMarker_familiar (record : Record) : Familiar (walkMarker record) := by
  refine .bind (.lift _) fun marker => ?_
  split
  · split
    · exact .pure _
    · refine readSegment_familiar.bind fun data => ?_
      split
      · exact .throw rfl
      · exact .pure _
    · refine readSegment_familiar.bind fun data => ?_
      split
      · exact .pure _
      · exact .throw rfl
    · refine readSegment_familiar.bind fun data => ?_
      split
      · exact .pure _
      · exact .throw rfl
    · exact .pure _
    · exact .pure _
    · exact .pure _
    · exact segmentLength_familiar.bind fun _ => .bind (.lift _) fun _ => .pure _
  · exact .pure _

theorem readCodestream_familiar (record : Record) : Familiar (readCodestream record) :=
  .walk walkMarker_familiar _ _

theorem contentLength_familiar (length : Nat) : Familiar (contentLength length) := by
  intro c error d failed
  rw [contentLength_eq] at failed
  split at failed
  · cases failed
  · split at failed
    · split at failed
      · cases failed
        rfl
      · cases failed
    · cases failed
      rfl
  · split at failed
    · cases failed
      rfl
    · cases failed

theorem readUuidBox_familiar (record : Record) (length : Nat) :
    Familiar (readUuidBox record length) := by
  unfold readUuidBox
  split
  · exact .throw rfl
  · refine .bind (.lift _) fun uuid => ?_
    have kept (f : Bytes → Record) : Familiar (do return f (← Read.run (length - 16))) :=
      .bind (.lift _) fun _ => .pure _
    split
    · exact kept _
    · split
      · exact kept _
      · split
        · exact kept _
        · exact .bind (.lift _) fun _ => .pure _

theorem walkBox_familiar (record : Record) : Familiar (walkBox record) := by
  have header : Familiar readHeader :=
    .bind (.lift _) fun _ => .bind (.lift _) fun _ => .bind (contentLength_familiar _) fun _ => .pure _
  have contents (type : Bytes) (length : Nat) : Familiar (readContents record type length) := by
    unfold readContents
    split
    · exact (readUuidBox_familiar record length).bind fun _ => .pure _
    · split
      · exact (readCodestream_familiar record).bind fun _ => .pure _
      · exact .bind (.lift _) fun _ => .pure _
  intro c error d failed
  rw [walkBox_eq] at failed
  split at failed
  · cases failed
  · exact header.bind (fun found => contents found.1 found.2) failed

theorem read_knows : Knows Format.Jp2Start read where
  accepts {data record last} ran := by
    obtain ⟨_, c, marked, ran⟩ := state_bind_eq_ok.mp ran
    cases marked
    obtain ⟨start, d, took, ran⟩ := state_bind_eq_ok.mp ran
    obtain ⟨-, whole⟩ := Read.rest_of_field (Read.lift_ok took)
    have front : start <+: data := ⟨d.rest, whole.symm⟩
    obtain ⟨_, e, -, ran⟩ := state_bind_eq_ok.mp ran
    split at ran
    next bare => exact .inr (bare ▸ (List.take_prefix 4 start).trans front)
    next other =>
      split at ran
      next signed => exact .inl (signed ▸ front)
      next => cases ran
  own {data error last} failed starts := by
    cases starts with
    | inl signed =>
      rw [read_signed signed] at failed
      exact Familiar.walk walkBox_familiar _ _ failed
    | inr bare =>
      by_cases long : 12 ≤ data.length
      · rw [read_bare bare long] at failed
        exact readCodestream_familiar {} failed
      · have short := congrArg Prod.fst (read_short (Nat.lt_of_not_le long))
        rw [Read.onBytes, failed] at short
        cases short
        rfl

end Jp2

namespace ImageInfo

/-- The fields found in datasets are told unless all of them are missing. -/
def TellsFields (datasets : Option Bytes) (told : Option Iim.Fields) : Prop :=
  ∀ fields, told = some fields ↔ ∃ bytes, datasets = some bytes ∧ Iim.parse bytes = fields ∧
    (fields.objectName ≠ none ∨ fields.caption ≠ none ∨ fields.keywords ≠ [])

theorem usableFields?_tells (datasets : Option Bytes) :
    TellsFields datasets (usableFields? datasets) := by
  intro fields
  have usable : (!fields.isEmpty) = true ↔
      fields.objectName ≠ none ∨ fields.caption ≠ none ∨ fields.keywords ≠ [] := by
    rw [Bool.not_eq_true', Iim.Fields.isEmpty, Bool.and_eq_false_iff, Bool.and_eq_false_iff,
      Option.isNone_eq_false_iff, Option.isNone_eq_false_iff, Option.isSome_iff_ne_none,
      Option.isSome_iff_ne_none, List.isEmpty_eq_false_iff, or_assoc]
  rw [usableFields?, Option.filter_eq_some_iff, Option.map_eq_some_iff, usable]
  constructor
  · rintro ⟨⟨bytes, present, parsed⟩, some_set⟩
    exact ⟨bytes, present, parsed, some_set⟩
  · rintro ⟨bytes, present, parsed, some_set⟩
    exact ⟨⟨bytes, present, parsed⟩, some_set⟩

end ImageInfo

/-- What a file tells whose stream has this record. -/
structure Gif.Record.Told (record : Gif.Record) (info : ImageInfo) : Prop where
  format : info.format = .gif
  width : info.width = record.width
  height : info.height = record.height
  loopCount : info.loopCount = some record.loopCount
  delayTime : info.delayTime = some record.delayTime
  xmp : info.xmp = record.xmp
  foreign : info.tileSize = none ∧ info.decompositionLevels = none ∧ info.iptc = none

/-- What a file tells whose segments have this record. -/
structure Jpeg.Record.Told (record : Jpeg.Record) (info : ImageInfo) : Prop where
  format : info.format = .jpeg
  width : info.width = record.width
  height : info.height = record.height
  xmp : info.xmp = record.xmp
  iptc : ImageInfo.TellsFields record.iptc info.iptc
  foreign : info.loopCount = none ∧ info.delayTime = none ∧ info.tileSize = none ∧
    info.decompositionLevels = none

/-- What a file tells whose boxes or codestream have this record. -/
structure Jp2.Record.Told (record : Jp2.Record) (info : ImageInfo) : Prop where
  format : info.format = .jpeg2000
  width : info.width = record.width
  height : info.height = record.height
  tileSize : info.tileSize = some (record.tileWidth, record.tileHeight)
  decompositionLevels : info.decompositionLevels = some record.decompositionLevels
  xmp : info.xmp = record.xmp
  iptc : ImageInfo.TellsFields record.iptc info.iptc
  foreign : info.loopCount = none ∧ info.delayTime = none

namespace ImageInfo

theorem ofGif_told (record : Gif.Record) : record.Told (ofGif record) where
  format := rfl
  width := rfl
  height := rfl
  loopCount := rfl
  delayTime := rfl
  xmp := rfl
  foreign := ⟨rfl, rfl, rfl⟩

theorem ofJpeg_told (record : Jpeg.Record) : record.Told (ofJpeg record) where
  format := rfl
  width := rfl
  height := rfl
  xmp := rfl
  iptc := usableFields?_tells record.iptc
  foreign := ⟨rfl, rfl, rfl, rfl⟩

theorem ofJp2_told (record : Jp2.Record) : record.Told (ofJp2 record) where
  format := rfl
  width := rfl
  height := rfl
  tileSize := rfl
  decompositionLevels := rfl
  xmp := rfl
  iptc := usableFields?_tells record.iptc
  foreign := ⟨rfl, rfl⟩

/-- The file is refused for what it begins with. -/
def Unrecognized (told : Except MetadataError ImageInfo) : Prop :=
  ∃ format found, told = .error (.invalidSignature format found)

variable (probe : SizeProbe) (format : Format) (path : Path) (data : Bytes)

theorem ofFile_eq :
    ofFile probe path data = match Format.detect? data with
      | some format => ofFormat probe format path data
      | none => .error (.invalidSignature "image" (data.take Format.sniffLength)) := by
  cases found : Format.detect? data with
  | none => simp only [ofFile, Format.detect?_take, found]
  | some format => simp only [ofFile, Format.detect?_take, found]

theorem sized_recognized : ¬ Unrecognized (sized probe format path data) := by
  rintro ⟨name, found, refused⟩
  unfold sized at refused
  split at refused
  · cases refused
  · cases refused

end ImageInfo

def Read.Accepts {ρ : Type} (read : Read MetadataError ρ) (data : Bytes) : Prop :=
  ∃ record, (read.onBytes data).1 = .ok record

/-- `read` is the reader for data that is announced as `format`, and a file with such data
tells of a record what `Told` says. -/
structure Format.ReadBy {ρ : Type} (format : Format) (read : Read MetadataError ρ)
    (Told : ρ → ImageInfo → Prop) (data : Bytes) : Prop where
  /-- Data that it accepts is announced as its format. -/
  announced : read.Accepts data → detect? data = some format
  /-- It finds nothing foreign in data that is announced as its format. -/
  familiar : detect? data = some format →
    ∀ error, (read.onBytes data).1 = .error error → error.isForeign = false
  /-- A file fails as the reader fails on the whole of it, -/
  failed : detect? data = some format → ∀ error, (read.onBytes data).1 = .error error →
    ∀ probe path, ImageInfo.ofFile probe path data = .error error
  /-- or else tells what the reader finds. -/
  told : detect? data = some format → ∀ record, (read.onBytes data).1 = .ok record →
    ∀ probe path, ∃ info, ImageInfo.ofFile probe path data = .ok info ∧ Told record info

section

variable {ρ : Type} {read : Read MetadataError ρ} {start : Bytes → Prop} {format : Format}
  {Told : ρ → ImageInfo → Prop} {data : Bytes}

theorem Read.onBytes_error {error : MetadataError} (failed : (read.onBytes data).1 = .error error) :
    ∃ last, read (.ofBytes data) = .error error last := by
  unfold Read.onBytes at failed
  split at failed
  · cases failed
  next ran =>
    cases failed
    exact ⟨_, ran⟩

theorem Read.Knows.readBy {info : ρ → ImageInfo} (knows : read.Knows start)
    (detected : Format.detect? data = some format ↔ start data)
    (handed : ∀ probe path,
      ImageInfo.ofFormat probe format path data = info <$> (read.onBytes data).1)
    (told : ∀ record, Told record (info record)) : format.ReadBy read Told data where
  announced := by
    rintro ⟨record, accepted⟩
    obtain ⟨d, ran, -⟩ := Read.onBytes_ok_iff.mp (Prod.ext accepted rfl)
    exact detected.mpr (knows.accepts ran)
  familiar found error failed := by
    obtain ⟨last, ran⟩ := Read.onBytes_error failed
    exact knows.own ran (detected.mp found)
  failed found error failed probe path := by
    rw [ImageInfo.ofFile_eq, found]
    exact (handed probe path).trans (failed ▸ rfl)
  told found record accepted probe path := by
    refine ⟨info record, ?_, told record⟩
    rw [ImageInfo.ofFile_eq, found]
    exact (handed probe path).trans (accepted ▸ rfl)

theorem Format.ReadBy.recognized (agrees : format.ReadBy read Told data)
    (found : Format.detect? data = some format) (probe : SizeProbe) (path : Path) :
    ¬ ImageInfo.Unrecognized (ImageInfo.ofFile probe path data) := by
  rintro ⟨name, bytes, refused⟩
  cases outcome : (read.onBytes data).1 with
  | ok record =>
    obtain ⟨info, accepted, -⟩ := agrees.told found record outcome probe path
    cases refused.symm.trans accepted
  | error error =>
    cases refused.symm.trans (agrees.failed found error outcome probe path)
    cases agrees.familiar found _ outcome

end

variable (data : Bytes)

theorem readBy_gif : Format.gif.ReadBy Gif.read Gif.Record.Told data :=
  Gif.read_knows.readBy Format.detect?_gif_iff (fun _ _ => rfl) ImageInfo.ofGif_told

theorem readBy_jpeg : Format.jpeg.ReadBy Jpeg.read Jpeg.Record.Told data :=
  Jpeg.read_knows.readBy Format.detect?_jpeg_iff (fun _ _ => rfl) ImageInfo.ofJpeg_told

theorem readBy_jpeg2000 : Format.jpeg2000.ReadBy Jp2.read Jp2.Record.Told data :=
  Jp2.read_knows.readBy Format.detect?_jpeg2000_iff (fun _ _ => rfl) ImageInfo.ofJp2_told

/-- A file is refused as unrecognized exactly if its first bytes announce no format. -/
theorem unrecognized_iff (probe : SizeProbe) (path : Path) :
    ImageInfo.Unrecognized (ImageInfo.ofFile probe path data) ↔ Format.detect? data = none := by
  cases found : Format.detect? data with
  | none => exact iff_of_true ⟨_, _, by rw [ImageInfo.ofFile_eq, found]⟩ rfl
  | some format =>
    refine iff_of_false ?_ (Option.some_ne_none _)
    cases format with
    | gif => exact (readBy_gif data).recognized found probe path
    | jpeg => exact (readBy_jpeg data).recognized found probe path
    | jpeg2000 => exact (readBy_jpeg2000 data).recognized found probe path
    | png | webp =>
      rw [ImageInfo.ofFile_eq, found]
      exact ImageInfo.sized_recognized probe _ path data
    | tiff =>
      rw [ImageInfo.ofFile_eq, found]
      rintro ⟨name, bytes, refused⟩
      refine ImageInfo.sized_recognized probe .tiff path data ⟨name, bytes, ?_⟩
      simp only [ImageInfo.ofFormat] at refused
      cases sized : ImageInfo.sized probe .tiff path data with
      | ok info =>
        rw [sized] at refused
        cases refused
      | error error =>
        rw [sized] at refused
        cases refused
        rfl

/-- The first twelve bytes tell the format. The reader of a container accepts only data that
is announced as its format, so that no two readers accept the same; it never finds such data
foreign; and it is the reader that a file with such data is handed to, whole, and that says
what the file tells. A file is refused as unrecognized exactly if nothing is announced. -/
theorem sniffing_agrees :
    (∀ other : Bytes, other.take 12 = data.take 12 → Format.detect? other = Format.detect? data) ∧
    Format.gif.ReadBy Gif.read Gif.Record.Told data ∧
    Format.jpeg.ReadBy Jpeg.read Jpeg.Record.Told data ∧
    Format.jpeg2000.ReadBy Jp2.read Jp2.Record.Told data ∧
    (¬ (Gif.read.Accepts data ∧ Jpeg.read.Accepts data) ∧
      ¬ (Gif.read.Accepts data ∧ Jp2.read.Accepts data) ∧
      ¬ (Jpeg.read.Accepts data ∧ Jp2.read.Accepts data)) ∧
    ∀ probe path,
      ImageInfo.Unrecognized (ImageInfo.ofFile probe path data) ↔ Format.detect? data = none := by
  have apart {first second : Format} (other : first ≠ second) {one two : Prop}
      (left : one → Format.detect? data = some first)
      (right : two → Format.detect? data = some second) : ¬ (one ∧ two) := by
    rintro ⟨here, there⟩
    exact other (Option.some.inj ((left here).symm.trans (right there)))
  have gif := readBy_gif data
  have jpeg := readBy_jpeg data
  have jp2 := readBy_jpeg2000 data
  refine ⟨fun other same => ?_, gif, jpeg, jp2, ⟨?_, ?_, ?_⟩, unrecognized_iff data⟩
  · rw [← Format.detect?_take other, ← Format.detect?_take data]
    exact congrArg Format.detect? same
  · exact apart (by decide) gif.announced jpeg.announced
  · exact apart (by decide) gif.announced jp2.announced
  · exact apart (by decide) jpeg.announced jp2.announced

end ImageDerivative
