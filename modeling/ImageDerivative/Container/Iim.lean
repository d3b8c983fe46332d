import ImageDerivative.Text.Blank
import ImageDerivative.Text.Utf8

/-! IIM datasets: the byte 0x1C, a record number, a dataset number, a length of
two bytes and a value. Three datasets of record 2 become fields; bytes between
datasets are passed over. -/
namespace ImageDerivative.Iim

structure Fields where
  objectName : Option String := none
  caption : Option String := none
  keywords : List String := []
  deriving DecidableEq, Repr

def Fields.isEmpty (fields : Fields) : Bool :=
  fields.objectName.isNone && fields.caption.isNone && fields.keywords.isEmpty

def marker : UInt8 := 0x1C

structure Dataset where
  record : UInt8
  number : UInt8
  value : Bytes
  deriving DecidableEq, Repr

/-- The datasets of `data` in order, up to one whose length overruns it. -/
def datasets (data : Bytes) : List Dataset :=
  match data with
  | lead :: record :: number :: high :: low :: rest =>
    if lead = marker then
      let length := Bytes.ofBigEndian [high, low]
      let value := rest.take length
      if value.length = length then ⟨record, number, value⟩ :: datasets (rest.drop length)
      else []
    else datasets (record :: number :: high :: low :: rest)
  | _ => []
termination_by data.length
decreasing_by
  all_goals simp only [List.length_drop, List.length_cons]; omega

/-- A dataset of record 2 with a value that is not blank sets or extends a field. -/
def Fields.add (fields : Fields) (dataset : Dataset) : Fields :=
  let value := Text.trim (Utf8.decodeLossy dataset.value)
  if dataset.record ≠ 2 ∨ value.isEmpty then fields
  else match dataset.number with
    | 5 => { fields with objectName := some value }
    | 25 => { fields with keywords := fields.keywords ++ [value] }
    | 120 => { fields with caption := some value }
    | _ => fields

def parse (data : Bytes) : Fields := (datasets data).foldl Fields.add {}

end ImageDerivative.Iim
