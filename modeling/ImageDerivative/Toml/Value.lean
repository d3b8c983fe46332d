import ImageDerivative.Dict

/-! TOML values, and laying one over another. -/
namespace ImageDerivative

inductive TomlValue where
  | string (text : String)
  | integer (value : Int)
  | float (value : Float)
  | boolean (value : Bool)
  /-- A date, a time or both, in its standard spelling. -/
  | datetime (text : String)
  | array (items : List TomlValue)
  | table (fields : List (String × TomlValue))
  deriving Inhabited

namespace TomlValue

mutual

/-- `overlay` on top of `base`. Tables are merged key by key; anything else in the
overlay replaces what the base has. -/
def merge (base : TomlValue) : (overlay : TomlValue) → TomlValue
  | .table overlay =>
    match base with
    | .table base => .table (mergeFields base overlay)
    | _ => .table overlay
  | overlay => overlay

def mergeFields (base : Dict TomlValue) : (overlay : List (String × TomlValue)) → Dict TomlValue
  | [] => base
  | (key, value) :: rest =>
    let merged := match base.get? key with
      | some old => merge old value
      | none => value
    mergeFields (base.put key merged) rest

end

end TomlValue

end ImageDerivative
