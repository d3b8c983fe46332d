import ImageDerivative.Container.Iim
import ImageDerivative.Container.PhotoshopResource

/-! TIFF structure: a header that names the byte order, then a chain of
directories. An entry of a directory has a tag, a type, a count, and four bytes
that are the value if it fits, else its offset. -/
namespace ImageDerivative.Tiff

inductive Order where
  | little
  | big
  deriving DecidableEq, Repr

def Order.number : Order → Bytes → Nat
  | little => Bytes.ofLittleEndian
  | big => Bytes.ofBigEndian

/-- A byte string with the order its numbers are written in. -/
structure File where
  data : Bytes
  order : Order
  deriving Repr

namespace File

/-- The number of `width` bytes at `start`. -/
def number? (file : File) (start width : Nat) : Option Nat :=
  (file.data.slice? start width).map file.order.number

def ofBytes? (data : Bytes) : Option File := do
  let order ← match data.take 2 with
    | [0x4D, 0x4D] => some Order.big
    | [0x49, 0x49] => some Order.little
    | _ => none
  let file : File := ⟨data, order⟩
  if (← file.number? 2 2) = 42 then some file else none

/-- The bytes of one unit of a type; unknown types count bytes. -/
def unitLength : (type : Nat) → Nat
  | 3 | 8 => 2
  | 4 | 9 | 11 | 13 => 4
  | 5 | 10 | 12 => 8
  | _ => 1

def entryValue? (file : File) (start : Nat) : Option Bytes := do
  let length := (← file.number? (start + 4) 4) * unitLength (← file.number? (start + 2) 2)
  let offset ← if length ≤ 4 then some (start + 8) else file.number? (start + 8) 4
  file.data.slice? offset length

/-- The tag of raw IPTC datasets, and the tag of resource blocks that hold them. -/
def iptcTag : Nat := 33723

def photoshopTag : Nat := 34377

/-- The fields of a value under one of the two tags, unless they are empty. -/
def fieldsOfValue? (tag : Nat) (value : Bytes) : Option Iim.Fields :=
  let datasets := if tag = iptcTag then some value else PhotoshopResource.findIptc? value
  (datasets.map Iim.parse).filter fun fields => !fields.isEmpty

/-- The usable fields of an entry. An entry with another tag, or with a value
that cannot be used, has none; the outer `none` says that the file ends before it. -/
def entryFields? (file : File) (start : Nat) : Option (Option Iim.Fields) := do
  let tag ← file.number? start 2
  if tag = iptcTag ∨ tag = photoshopTag then
    return (file.entryValue? start).bind (fieldsOfValue? tag)
  else return none

/-- The first usable fields of a directory's entries. -/
def firstFields? (file : File) : (start count : Nat) → Option (Option Iim.Fields)
  | _, 0 => some none
  | start, count + 1 => do
    match ← file.entryFields? start with
    | some fields => return some fields
    | none => file.firstFields? (start + 12) count

/-- How many directories are visited, so that a chain in a circle ends. -/
def maxDirectories : Nat := 64

/-- The first usable fields along the chain that begins at `start`. -/
def chainFields? (file : File) : (visits start : Nat) → Option Iim.Fields
  | 0, _ => none
  | visits + 1, start => do
    if start = 0 then none
    else
      let count ← file.number? start 2
      match ← file.firstFields? (start + 2) count with
      | some fields => return fields
      | none => file.chainFields? visits (← file.number? (start + 2 + count * 12) 4)

end File

def iptcFields? (data : Bytes) : Option Iim.Fields := do
  let file ← File.ofBytes? data
  file.chainFields? File.maxDirectories (← file.number? 4 4)

end ImageDerivative.Tiff
