import ImageDerivative.Json.Value

/-! A choice between names, as JSON writes it. -/
namespace ImageDerivative.JsonValue

/-- The name that a value chooses: it is the name itself, or an object with the name as
its only key and nothing under it. -/
def choice? : JsonValue → Option String
  | .string name => name
  | .object [(name, .null)] => name
  | _ => none

end ImageDerivative.JsonValue
