import ImageDerivative.Bytes

/-! Image resource blocks: the marker 8BIM, an identifier of two bytes, a name
counted by one byte and padded so that count and name take an even number of
bytes, a payload counted by four bytes and padded to even length. Bytes that
begin no block are passed over one at a time. -/
namespace ImageDerivative.PhotoshopResource

/-- What a JPEG segment puts before its blocks. -/
def header : Bytes := Bytes.ofText "Photoshop 3.0" ++ [0]

def marker : Bytes := Bytes.ofText "8BIM"

def iptcId : Nat := 0x0404

/-- The least even number that is not below `n`. -/
def even (n : Nat) : Nat := n + n % 2

/-- A block as it is read, and what follows it when its padding is there. -/
structure Block where
  id : Nat
  payload : Bytes
  rest : Bytes
  deriving DecidableEq, Repr

def Block.read? (bytes : Bytes) : Option Block := do
  let afterId := bytes.drop 6
  let nameLength ← afterId.head?
  let afterName := afterId.drop (even (1 + nameLength.toNat))
  let size ← Bytes.slice? afterName 0 4
  let count := Bytes.ofBigEndian size
  let payload ← Bytes.slice? (afterName.drop 4) 0 count
  return {
    id := Bytes.ofBigEndian ((bytes.drop 4).take 2)
    payload
    rest := (afterName.drop 4).drop (even count) }

theorem Block.length_rest_le {bytes : Bytes} {block : Block} (h : read? bytes = some block) :
    block.rest.length ≤ bytes.length - 6 := by
  simp only [read?, Option.bind_eq_bind, Option.bind_eq_some_iff, Option.pure_def,
    Option.some.injEq] at h
  obtain ⟨_, _, _, _, _, _, rfl⟩ := h
  simp only [List.length_drop]
  omega

/-- The least number of bytes that can hold a block. -/
def minBlockLength : Nat := 12

/-- The payload of the first block with the identifier `id`. A block that runs
past the end ends the search. -/
def find? (id : Nat) (bytes : Bytes) : Option Bytes :=
  if _short : bytes.drop (minBlockLength - 1) = [] then none
  else if bytes.startsWith marker then
    match _found : Block.read? bytes with
    | none => none
    | some block => if block.id = id then some block.payload else find? id block.rest
  else find? id (bytes.drop 1)
termination_by bytes.length
decreasing_by
  · have := Block.length_rest_le _found
    simp only [List.drop_eq_nil_iff, minBlockLength] at _short
    omega
  · simp only [List.drop_eq_nil_iff, minBlockLength, List.length_drop] at *
    omega

/-- The IPTC datasets among the blocks of `data`, with or without the header. -/
def findIptc? (data : Bytes) : Option Bytes :=
  find? iptcId ((Bytes.after? header data).getD data)

end ImageDerivative.PhotoshopResource
