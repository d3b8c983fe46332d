import Mathlib
import ImageDerivative.Container.Iim
import ImageDerivative.Proofs.Chains
import ImageDerivative.Proofs.Numerals

/-! The written form of IIM datasets, with bytes between them that begin none, and what is read
of it. What a value holds never counts as a dataset, as it is passed over by its length. -/
namespace ImageDerivative.Iim

/-- Bytes in which no dataset begins. -/
structure Gap where
  bytes : Bytes
  free : marker ∉ bytes

/-- A dataset whose length can be written, behind a gap. -/
structure Placed where
  gap : Gap
  dataset : Dataset
  short : dataset.value.length ≤ 65535

def header (record number : UInt8) (length : Nat) : Bytes :=
  marker :: record :: number :: Bytes.toBigEndian 2 length

def Placed.encode (placed : Placed) : Bytes :=
  placed.gap.bytes ++ (header placed.dataset.record placed.dataset.number
    placed.dataset.value.length ++ placed.dataset.value)

/-- What may follow the last dataset: a gap, or after one a header that declares more bytes
than there are. -/
inductive Ending where
  | quiet (gap : Gap)
  | overrun (gap : Gap) (record number : UInt8) (length : Nat) (rest : Bytes)
    (written : length ≤ 65535) (beyond : rest.length < length)

def Ending.encode : Ending → Bytes
  | quiet gap => gap.bytes
  | overrun gap record number length rest _ _ => gap.bytes ++ (header record number length ++ rest)

structure Stream where
  placed : List Placed
  ending : Ending

namespace Stream

def encode (stream : Stream) : Bytes :=
  stream.placed.flatMap Placed.encode ++ stream.ending.encode

def datasets (stream : Stream) : List Dataset := stream.placed.map Placed.dataset

end Stream

theorem datasets_short {data : Bytes} (short : data.length < 5) : datasets data = [] := by
  unfold datasets
  split
  next =>
    simp only [List.length_cons] at short
    omega
  next => rfl

theorem datasets_step {b : UInt8} {rest : Bytes} (other : b ≠ marker) (more : 4 ≤ rest.length) :
    datasets (b :: rest) = datasets rest := by
  match rest, more with
  | record :: number :: high :: low :: rest, _ =>
    conv => lhs; unfold datasets
    rw [if_neg other]

/-- A gap is passed over if enough for a header follows. -/
theorem datasets_gap {gap rest : Bytes} (free : marker ∉ gap) (more : 5 ≤ rest.length) :
    datasets (gap ++ rest) = datasets rest := by
  induction gap with
  | nil => rfl
  | cons b gap ih =>
    rw [List.mem_cons, not_or] at free
    obtain ⟨other, free⟩ := free
    have enough : 4 ≤ (gap ++ rest).length := by
      rw [List.length_append]
      omega
    rw [List.cons_append, datasets_step (Ne.symm other) enough, ih free]

/-- A gap at the end holds no dataset, however long it is. -/
theorem datasets_free {gap : Bytes} (free : marker ∉ gap) : datasets gap = [] := by
  induction gap with
  | nil => exact datasets_short (by decide)
  | cons b gap ih =>
    rw [List.mem_cons, not_or] at free
    obtain ⟨other, free⟩ := free
    -- The reading stops where fewer bytes are left than a header has.
    by_cases more : 4 ≤ gap.length
    · rw [datasets_step (Ne.symm other) more, ih free]
    · apply datasets_short
      rw [List.length_cons]
      omega

theorem datasets_header (record number : UInt8) {length : Nat} (written : length ≤ 65535)
    (rest : Bytes) :
    datasets (header record number length ++ rest) =
      if length ≤ rest.length then ⟨record, number, rest.take length⟩ :: datasets (rest.drop length)
      else [] := by
  have fits : length < 256 ^ 2 := by omega
  have read := Bytes.ofBigEndian_toBigEndian fits
  have enough : (rest.take length).length = length ↔ length ≤ rest.length := by
    rw [List.length_take]
    omega
  obtain ⟨high, low, two⟩ : ∃ high low, Bytes.toBigEndian 2 length = [high, low] := ⟨_, _, rfl⟩
  rw [two] at read
  rw [header, two]
  conv => lhs; unfold datasets
  simp only [List.cons_append, List.nil_append, if_true, read, enough]

theorem length_header (record number : UInt8) (length : Nat) :
    (header record number length).length = 5 := by
  simp [header]

theorem datasets_placed (placed : Placed) (rest : Bytes) :
    datasets (placed.encode ++ rest) = placed.dataset :: datasets rest := by
  obtain ⟨⟨gap, free⟩, ⟨record, number, value⟩, short⟩ := placed
  have more : 5 ≤ (header record number value.length ++ (value ++ rest)).length := by
    rw [List.length_append, length_header]
    omega
  have inside : value.length ≤ (value ++ rest).length := by
    rw [List.length_append]
    omega
  simp only [Placed.encode, List.append_assoc]
  rw [datasets_gap free more, datasets_header record number short, if_pos inside,
    List.take_left' rfl, List.drop_left' rfl]

theorem datasets_ending (ending : Ending) : datasets ending.encode = [] := by
  cases ending with
  | quiet gap => exact datasets_free gap.free
  | overrun gap record number length rest written beyond =>
    have more : 5 ≤ (header record number length ++ rest).length := by
      rw [List.length_append, length_header]
      omega
    rw [Ending.encode, datasets_gap gap.free more, datasets_header record number written,
      if_neg (Nat.not_le.mpr beyond)]

theorem datasets_encode (stream : Stream) : datasets stream.encode = stream.datasets := by
  obtain ⟨placed, ending⟩ := stream
  unfold Stream.encode Stream.datasets
  simp only
  induction placed with
  | nil => exact datasets_ending ending
  | cons first rest ih =>
    rw [List.flatMap_cons, List.append_assoc, datasets_placed, ih, List.map_cons]

/-- The text of a dataset with this number in the record that is read, if it is not blank. -/
def Dataset.text? (number : UInt8) (dataset : Dataset) : Option String :=
  let text := Text.trim (Utf8.decodeLossy dataset.value)
  if dataset.record = 2 ∧ dataset.number = number ∧ text ≠ "" then some text else none

/-- Of names and captions the last one counts, of keywords every one. -/
def gathered (datasets : List Dataset) : Fields where
  objectName := (datasets.filterMap (Dataset.text? 5)).getLast?
  caption := (datasets.filterMap (Dataset.text? 120)).getLast?
  keywords := datasets.filterMap (Dataset.text? 25)

/-- One dataset more tells at most one field. -/
theorem add_eq (fields : Fields) (dataset : Dataset) :
    fields.add dataset = {
      objectName := (dataset.text? 5).or fields.objectName
      caption := (dataset.text? 120).or fields.caption
      keywords := fields.keywords ++ (dataset.text? 25).toList } := by
  obtain ⟨record, number, value⟩ := dataset
  simp only [Fields.add, Dataset.text?, String.isEmpty_iff]
  generalize Text.trim (Utf8.decodeLossy value) = text
  by_cases skipped : record ≠ 2 ∨ text = ""
  · have untold (n : UInt8) : ¬ (record = 2 ∧ number = n ∧ text ≠ "") := by tauto
    simp only [if_pos skipped, if_neg (untold _), Option.none_or, Option.toList_none,
      List.append_nil]
  · have told (n : UInt8) : (record = 2 ∧ number = n ∧ text ≠ "") ↔ number = n := by tauto
    simp only [if_neg skipped, told]
    by_cases name : number = 5
    · subst name
      simp
    by_cases keyword : number = 25
    · subst keyword
      simp
    by_cases caption : number = 120
    · subst caption
      simp
    · simp [name, keyword, caption]

theorem gathered_concat (datasets : List Dataset) (dataset : Dataset) :
    gathered (datasets ++ [dataset]) = (gathered datasets).add dataset := by
  simp only [add_eq, gathered, filterMap_concat, getLast?_append_toList]

theorem foldl_add (datasets : List Dataset) : datasets.foldl Fields.add {} = gathered datasets := by
  induction datasets using List.reverseRecOn with
  | nil => rfl
  | append_singleton before last ih =>
    rw [List.foldl_append, ih, gathered_concat]
    rfl

/-- Of every stream of datasets the name and the caption are the last that are not blank, and
the keywords are all that are not blank, in their order. An ending tells nothing. -/
theorem parse_encode (stream : Stream) : parse stream.encode = gathered stream.datasets := by
  rw [parse, datasets_encode, foldl_add]

end ImageDerivative.Iim
