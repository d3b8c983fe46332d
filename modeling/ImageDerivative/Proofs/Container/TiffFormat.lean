import ImageDerivative.Container.Tiff

/-! The written form of TIFF files: a chain of directories anywhere in the file, whose entries
have their values in themselves or anywhere in the file. What else the file holds is left
open, and so is where things stand. -/
namespace ImageDerivative.Tiff

/-- The `width` bytes of `n` in this order. -/
def Order.write : Order → (width n : Nat) → Bytes
  | little => Bytes.toLittleEndian
  | big => Bytes.toBigEndian

/-- What a file in this order begins with. -/
def Order.mark : Order → Bytes
  | little => [0x49, 0x49]
  | big => [0x4D, 0x4D]

/-- What an entry tells. There is no value if its range does not lie in the file. -/
structure Tag where
  number : UInt16
  type : UInt16
  count : UInt32
  value? : Option Bytes

namespace Tag

def length (tag : Tag) : Nat := tag.count.toNat * File.unitLength tag.type.toNat

/-- The entry of a tag, of which `place` are the last four bytes. -/
def encode (order : Order) (tag : Tag) (place : Bytes) : Bytes :=
  order.write 2 tag.number.toNat ++
    (order.write 2 tag.type.toNat ++ (order.write 4 tag.count.toNat ++ place))

/-- The last bytes of an entry are the value if it fits, else the offset at which it stands or
would reach beyond the end. -/
inductive Placed (order : Order) (data : Bytes) (tag : Tag) : (place : Bytes) → Prop where
  | inside {value : Bytes} (padding : Bytes) (whole : value.length = tag.length)
    (room : (value ++ padding).length = 4) (told : tag.value? = some value) :
    Placed order data tag (value ++ padding)
  | outside {value : Bytes} (offset : UInt32) (long : 4 < tag.length)
    (whole : value.length = tag.length) (stands : value <+: data.drop offset.toNat)
    (told : tag.value? = some value) : Placed order data tag (order.write 4 offset.toNat)
  | beyond (offset : UInt32) (long : 4 < tag.length)
    (overrun : data.length < offset.toNat + tag.length) (untold : tag.value? = none) :
    Placed order data tag (order.write 4 offset.toNat)

end Tag

/-- The entries of the tags stand one behind the other. -/
def EntriesAt (order : Order) (data : Bytes) : (start : Nat) → List Tag → Prop
  | _, [] => True
  | start, tag :: rest =>
    (∃ place, tag.Placed order data place ∧ tag.encode order place <+: data.drop start) ∧
      EntriesAt order data (start + 12) rest

/-- What a directory tells, with a number of entries that can be written. -/
structure Listing where
  tags : List Tag
  few : tags.length < 0x10000 := by decide

/-- A directory stands at `start` with a link to `next` behind its entries. -/
structure Listing.StandsAt (order : Order) (data : Bytes) (listing : Listing) (start : Nat)
    (next : UInt32) : Prop where
  counted : order.write 2 listing.tags.length <+: data.drop start
  entries : EntriesAt order data (start + 2) listing.tags
  linked : order.write 4 next.toNat <+: data.drop (start + 2 + listing.tags.length * 12)

/-- The links lead from `start` through the directories to `stop`. No directory stands at 0. -/
inductive Linked (order : Order) (data : Bytes) :
    (start : UInt32) → List Listing → (stop : UInt32) → Prop where
  | done (start : UInt32) : Linked order data start [] start
  | onward {start next stop : UInt32} {listing : Listing} {rest : List Listing}
    (used : start ≠ 0) (stands : listing.StandsAt order data start.toNat next)
    (behind : Linked order data next rest stop) : Linked order data start (listing :: rest) stop

def header (order : Order) (first : UInt32) : Bytes :=
  order.mark ++ (order.write 2 42 ++ order.write 4 first.toNat)

/-- A file with these directories, the last of which has no link. -/
def Written (order : Order) (data : Bytes) (chain : List Listing) : Prop :=
  ∃ first, header order first <+: data ∧ Linked order data first chain 0

/-- A file in which the links lead into a circle. -/
def Circular (order : Order) (data : Bytes) (lead circle : List Listing) : Prop :=
  circle ≠ [] ∧ ∃ first back, header order first <+: data ∧ Linked order data first lead back ∧
    Linked order data back circle back

def datasetFields? (datasets : Bytes) : Option Iim.Fields :=
  if (Iim.parse datasets).isEmpty then none else some (Iim.parse datasets)

/-- A tag is usable if it is one of the two and its value tells fields. -/
def Tag.fields? (tag : Tag) : Option Iim.Fields :=
  if tag.number.toNat = File.iptcTag then tag.value?.bind datasetFields?
  else if tag.number.toNat = File.photoshopTag then
    (tag.value?.bind PhotoshopResource.findIptc?).bind datasetFields?
  else none

def fieldsUnder? (number : Nat) (tags : List Tag) : Option Iim.Fields :=
  (tags.find? fun tag => tag.number.toNat = number).bind Tag.fields?

namespace Listing

/-- The tags of a directory come in strictly increasing order. -/
def Ascending (listing : Listing) : Prop := listing.tags.Pairwise fun a b => a.number < b.number

/-- Raw datasets count before those in resource blocks. -/
def fields? (listing : Listing) : Option Iim.Fields :=
  (fieldsUnder? File.iptcTag listing.tags).or (fieldsUnder? File.photoshopTag listing.tags)

end Listing

end ImageDerivative.Tiff
