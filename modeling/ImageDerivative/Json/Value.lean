import ImageDerivative.Dict

/-! JSON values and their indented text. -/
namespace ImageDerivative

/-- A JSON value as far as it matters here: of numbers only those written as
natural numbers are kept, and a string whose escapes are no text has none. -/
inductive JsonValue where
  | null
  | boolean (value : Bool)
  | natural (value : Nat)
  | otherNumber
  | string (text : Option String)
  | array (items : List JsonValue)
  | object (fields : List (Option String × JsonValue))
  deriving Repr, Inhabited

namespace JsonValue

def text (s : String) : JsonValue := .string (some s)

/-- An object whose fields are written in this order. -/
def ofFields (fields : List (String × JsonValue)) : JsonValue :=
  .object (fields.map fun field => (some field.1, field.2))

def escapeChar (c : Char) : String :=
  match c with
  | '"' => "\\\""
  | '\\' => "\\\\"
  | '\n' => "\\n"
  | '\r' => "\\r"
  | '\t' => "\\t"
  | '\x08' => "\\b"
  | '\x0c' => "\\f"
  | c =>
    if c.toNat < 0x20 then
      "\\u00" ++ String.ofList [Nat.digitChar (c.toNat / 16), Nat.digitChar (c.toNat % 16)]
    else c.toString

def quote (s : String) : String := "\"" ++ String.join (s.toList.map escapeChar) ++ "\""

def indentation (depth : Nat) : String := String.ofList (List.replicate (2 * depth) ' ')

/-- `items` between brackets, each on a line of its own. -/
def enclose (openBracket closeBracket : String) (depth : Nat) (items : List String) : String :=
  if items.isEmpty then openBracket ++ closeBracket
  else openBracket ++ "\n" ++
    String.intercalate ",\n" (items.map fun item => indentation (depth + 1) ++ item) ++
    "\n" ++ indentation depth ++ closeBracket

mutual

/-- The indented text of a value that stands `depth` levels deep. -/
def render (depth : Nat) : JsonValue → String
  | .null => "null"
  | .boolean value => if value then "true" else "false"
  | .natural value => toString value
  | .otherNumber => "null"
  | .string content => quote (content.getD "")
  | .array items => enclose "[" "]" depth (renderItems (depth + 1) items)
  | .object fields => enclose "\x7b" "\x7d" depth (renderFields (depth + 1) fields)

def renderItems (depth : Nat) : List JsonValue → List String
  | [] => []
  | item :: rest => render depth item :: renderItems depth rest

def renderFields (depth : Nat) : List (Option String × JsonValue) → List String
  | [] => []
  | (key, value) :: rest =>
    (quote (key.getD "") ++ ": " ++ render depth value) :: renderFields depth rest

end

/-- Two blanks for each level, no blank at the end. -/
def pretty (value : JsonValue) : String := render 0 value

end JsonValue

end ImageDerivative
