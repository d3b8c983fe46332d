import Mathlib.Tactic.Common
import ImageDerivative.Container.PhotoshopResource
import ImageDerivative.Proofs.Numerals

/-! The written form of image resource blocks, and what is found in it. A name and a payload
are passed over by their lengths, each rounded up to an even number, so no marker inside them
begins a block. -/
namespace ImageDerivative.PhotoshopResource

/-- What makes a length even: one byte or none. -/
def padding (length : Nat) (pad : UInt8) : Bytes := List.replicate (length % 2) pad

/-- A block whose lengths can be written. Any byte may stand as padding. -/
structure Resource where
  id : UInt16
  name : Bytes
  namePad : UInt8
  payload : Bytes
  payloadPad : UInt8
  shortName : name.length ≤ 255
  shortPayload : payload.length < 0x100000000

namespace Resource

/-- The name behind the byte that counts it, both together of even length. -/
def nameField (resource : Resource) : Bytes :=
  UInt8.ofNat resource.name.length ::
    (resource.name ++ padding (1 + resource.name.length) resource.namePad)

def sizeField (resource : Resource) : Bytes := Bytes.toBigEndian 4 resource.payload.length

/-- The block up to the end of its payload. -/
def unpadded (resource : Resource) : Bytes :=
  marker ++ (Bytes.toBigEndian 2 resource.id.toNat ++
    (resource.nameField ++ (resource.sizeField ++ resource.payload)))

def encode (resource : Resource) : Bytes :=
  resource.unpadded ++ padding resource.payload.length resource.payloadPad

end Resource

/-- Blocks, and perhaps one more at the end without its padding. -/
structure Blocks where
  padded : List Resource
  unpadded? : Option Resource

namespace Blocks

def encode (blocks : Blocks) : Bytes :=
  blocks.padded.flatMap Resource.encode ++ (blocks.unpadded?.map Resource.unpadded).getD []

def resources (blocks : Blocks) : List Resource := blocks.padded ++ blocks.unpadded?.toList

def payload? (blocks : Blocks) (id : Nat) : Option Bytes :=
  (blocks.resources.find? fun resource => resource.id.toNat = id).map Resource.payload

end Blocks

theorem length_padding (length : Nat) (pad : UInt8) : (padding length pad).length = length % 2 :=
  List.length_replicate

theorem length_marker : marker.length = 4 := by decide

namespace Resource

variable (resource : Resource)

theorem length_nameField : resource.nameField.length = even (1 + resource.name.length) := by
  simp only [nameField, List.length_cons, List.length_append, length_padding, even]
  omega

theorem length_sizeField : resource.sizeField.length = 4 := Bytes.length_toBigEndian _ _

theorem minBlockLength_le_length : minBlockLength ≤ resource.unpadded.length := by
  simp only [unpadded, List.length_append, Bytes.length_toBigEndian, length_marker,
    length_nameField, length_sizeField, minBlockLength, even]
  omega

theorem after?_marker (rest : Bytes) :
    ∃ behind, Bytes.after? marker (resource.unpadded ++ rest) = some behind :=
  ⟨_, Bytes.after?_eq_some_iff.mpr (List.append_assoc _ _ _)⟩

/-- Behind the marker and the identifier. -/
theorem drop_unpadded (rest : Bytes) :
    (resource.unpadded ++ rest).drop 6 =
      resource.nameField ++ (resource.sizeField ++ (resource.payload ++ rest)) := by
  have front : (marker ++ Bytes.toBigEndian 2 resource.id.toNat).length = 6 := by
    rw [List.length_append, length_marker, Bytes.length_toBigEndian]
  simp only [unpadded, List.append_assoc]
  rw [← List.append_assoc marker, List.drop_left' front]

theorem id_unpadded (rest : Bytes) :
    Bytes.ofBigEndian (((resource.unpadded ++ rest).drop 4).take 2) = resource.id.toNat := by
  have fits : resource.id.toNat < 256 ^ 2 := resource.id.toNat_lt
  rw [unpadded, List.append_assoc, List.append_assoc, List.drop_left' length_marker,
    List.take_left' (Bytes.length_toBigEndian _ _), Bytes.ofBigEndian_toBigEndian fits]

theorem toNat_nameLength : (UInt8.ofNat resource.name.length).toNat = resource.name.length := by
  rw [UInt8.toNat_ofNat']
  exact Nat.mod_eq_of_lt (Nat.lt_succ_of_le resource.shortName)

/-- A block is read back, and behind it begins what follows its padding. -/
theorem read?_unpadded (rest : Bytes) :
    Block.read? (resource.unpadded ++ rest) = some {
      id := resource.id.toNat
      payload := resource.payload
      rest := rest.drop (resource.payload.length % 2) } := by
  have counted : (resource.nameField ++ (resource.sizeField ++ (resource.payload ++ rest))).head? =
      some (UInt8.ofNat resource.name.length) := rfl
  have named : (resource.nameField ++ (resource.sizeField ++ (resource.payload ++ rest))).drop
      (even (1 + resource.name.length)) = resource.sizeField ++ (resource.payload ++ rest) :=
    List.drop_left' resource.length_nameField
  have sized : Bytes.slice? (resource.sizeField ++ (resource.payload ++ rest)) 0 4 =
      some resource.sizeField :=
    Bytes.slice?_eq_some_iff_prefix.mpr
      ⟨resource.length_sizeField, List.prefix_append _ _, .inl (by decide)⟩
  have count : Bytes.ofBigEndian resource.sizeField = resource.payload.length :=
    Bytes.ofBigEndian_toBigEndian resource.shortPayload
  have behind : (resource.sizeField ++ (resource.payload ++ rest)).drop 4 =
      resource.payload ++ rest := List.drop_left' resource.length_sizeField
  have held : Bytes.slice? (resource.payload ++ rest) 0 resource.payload.length =
      some resource.payload :=
    Bytes.slice?_eq_some_iff_prefix.mpr ⟨rfl, List.prefix_append _ _, .inr (Nat.zero_le _)⟩
  have skipped : (resource.payload ++ rest).drop (even resource.payload.length) =
      rest.drop (resource.payload.length % 2) := List.drop_length_add_append _
  simp only [Block.read?, drop_unpadded, id_unpadded, toNat_nameLength, counted, named, sized,
    count, behind, held, skipped, Option.bind_eq_bind, Option.bind_some, Option.pure_def]

/-- The search ends at a block with the identifier, and goes on behind any other. -/
theorem find?_unpadded (id : Nat) (rest : Bytes) :
    find? id (resource.unpadded ++ rest) =
      if resource.id.toNat = id then some resource.payload
      else find? id (rest.drop (resource.payload.length % 2)) := by
  have long : ¬ (resource.unpadded ++ rest).drop (minBlockLength - 1) = [] := by
    have enough := resource.minBlockLength_le_length
    rw [List.drop_eq_nil_iff, List.length_append]
    unfold minBlockLength at enough ⊢
    omega
  have begins : (resource.unpadded ++ rest).startsWith marker :=
    Option.isSome_iff_exists.mpr (resource.after?_marker rest)
  rw [find?, dif_neg long, if_pos begins]
  split
  next none => rw [read?_unpadded] at none; cases none
  next block found =>
    rw [read?_unpadded] at found
    cases found
    rfl

theorem find?_encode (id : Nat) (rest : Bytes) :
    find? id (resource.encode ++ rest) =
      if resource.id.toNat = id then some resource.payload else find? id rest := by
  rw [encode, List.append_assoc, find?_unpadded, List.drop_left' (length_padding _ _)]

end Resource

theorem find?_nil (id : Nat) : find? id [] = none := by
  rw [find?, dif_pos List.drop_nil]

namespace Blocks

/-- The first block with the identifier counts, whatever the blocks hold. -/
theorem find?_encode (blocks : Blocks) (id : Nat) :
    find? id blocks.encode = blocks.payload? id := by
  obtain ⟨padded, unpadded?⟩ := blocks
  simp only [encode, payload?, resources]
  induction padded with
  | nil =>
    cases unpadded? with
    | none => exact find?_nil id
    | some resource =>
      have last := resource.find?_unpadded id []
      rw [List.append_nil, List.drop_nil, find?_nil] at last
      rw [List.flatMap_nil, List.nil_append, Option.map_some, Option.getD_some, last]
      by_cases same : resource.id.toNat = id <;> simp [same]
  | cons resource rest ih =>
    rw [List.flatMap_cons, List.append_assoc, Resource.find?_encode, ih, List.cons_append,
      List.find?_cons]
    by_cases same : resource.id.toNat = id <;> simp [same]

theorem after?_header_encode (blocks : Blocks) : Bytes.after? header blocks.encode = none := by
  -- What begins with the marker of a block does not begin with the header.
  have apart : ¬ marker <+: header ∧ ¬ header <+: marker := by decide
  have block (resource : Resource) (rest : Bytes) :
      Bytes.after? header (resource.unpadded ++ rest) = none := by
    obtain ⟨behind, begins⟩ := resource.after?_marker rest
    exact Bytes.after?_eq_none_of_after? begins apart
  obtain ⟨padded, unpadded?⟩ := blocks
  unfold encode
  cases padded with
  | nil =>
    cases unpadded? with
    | none => rfl
    | some resource => simpa using block resource []
  | cons resource rest =>
    rw [List.flatMap_cons, Resource.encode, List.append_assoc, List.append_assoc]
    exact block resource _

end Blocks

/-- Among any blocks, with the header or without it, the datasets are the payload of the first
block that has their identifier, and there are none if no block has it. -/
theorem findIptc?_encode (blocks : Blocks) :
    findIptc? (header ++ blocks.encode) = blocks.payload? iptcId ∧
      findIptc? blocks.encode = blocks.payload? iptcId := by
  constructor
  · rw [findIptc?, Bytes.after?_eq_some_iff.mpr rfl, Option.getD_some, blocks.find?_encode]
  · rw [findIptc?, blocks.after?_header_encode, Option.getD_none, blocks.find?_encode]

end ImageDerivative.PhotoshopResource
