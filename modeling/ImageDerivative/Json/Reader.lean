import ImageDerivative.Json.Value

/-! The strict reading of JSON: nothing but blanks around a value, no comments, no
trailing commas, no control characters in strings, and a bounded depth. -/
namespace ImageDerivative.JsonReader

/-- The characters still to read, behind what has been read. -/
abbrev Rest := List Char

def isBlank (c : Char) : Bool := c = ' ' || c = '\n' || c = '\r' || c = '\t'

def skipBlanks (cs : Rest) : Rest := cs.dropWhile isBlank

/-- How many arrays and objects may stand inside each other. -/
def maxDepth : Nat := 127

def hexDigit? (c : Char) : Option Nat :=
  if '0' ≤ c ∧ c ≤ '9' then some (c.toNat - '0'.toNat)
  else if 'a' ≤ c ∧ c ≤ 'f' then some (c.toNat - 'a'.toNat + 10)
  else if 'A' ≤ c ∧ c ≤ 'F' then some (c.toNat - 'A'.toNat + 10)
  else none

def hexNumber? (digits : List Char) : Option Nat :=
  digits.foldlM (fun n c => return n * 16 + (← hexDigit? c)) 0

def simpleEscape? : Char → Option Char
  | '"' => some '"'
  | '\\' => some '\\'
  | '/' => some '/'
  | 'b' => some '\x08'
  | 'f' => some '\x0c'
  | 'n' => some '\n'
  | 'r' => some '\r'
  | 't' => some '\t'
  | _ => none

/-- The 16-bit units and characters of a string's contents, up to its closing quote. -/
def readUnits : Rest → (units : List (Nat ⊕ Char)) → Option (List (Nat ⊕ Char) × Rest)
  | '"' :: rest, units => some (units.reverse, rest)
  | '\\' :: 'u' :: a :: b :: c :: d :: rest, units => do
    let unit ← hexNumber? [a, b, c, d]
    readUnits rest (.inl unit :: units)
  | '\\' :: c :: rest, units => do
    let escaped ← simpleEscape? c
    readUnits rest (.inr escaped :: units)
  | c :: rest, units =>
    if c = '\\' ∨ c.toNat < 0x20 then none else readUnits rest (.inr c :: units)
  | [], _ => none

/-- The text of escaped units, in which two halves make one character. -/
def textOfUnits? : List (Nat ⊕ Char) → Option (List Char)
  | [] => some []
  | .inr c :: rest => return c :: (← textOfUnits? rest)
  | .inl high :: .inl low :: rest =>
    if 0xD800 ≤ high ∧ high < 0xDC00 then
      if 0xDC00 ≤ low ∧ low < 0xE000 then do
        let code := 0x10000 + (high - 0xD800) * 0x400 + (low - 0xDC00)
        return Char.ofNat code :: (← textOfUnits? rest)
      else none
    else if 0xDC00 ≤ high ∧ high < 0xE000 then none
    else return Char.ofNat high :: (← textOfUnits? (.inl low :: rest))
  | .inl unit :: rest =>
    if 0xD800 ≤ unit ∧ unit < 0xE000 then none
    else return Char.ofNat unit :: (← textOfUnits? rest)

/-- A string whose opening quote has been read; its text if it has one. -/
def readString (cs : Rest) : Option (Option String × Rest) := do
  let (units, rest) ← readUnits cs []
  return ((textOfUnits? units).map String.ofList, rest)

def splitDigits (cs : Rest) : List Char × Rest := cs.span Char.isDigit

/-- Digits without a zero in front of others. -/
def readWhole? (cs : Rest) : Option (Nat × Rest) :=
  match splitDigits cs with
  | ([], _) => none
  | (['0'], rest) => some (0, rest)
  | ('0' :: _, _) => none
  | (digits, rest) => some (digits.foldl (fun n c => n * 10 + (c.toNat - '0'.toNat)) 0, rest)

/-- A number's fraction, if there is one; whether there is comes first. -/
def readFraction? : Rest → Option (Bool × Rest)
  | '.' :: cs =>
    match splitDigits cs with
    | ([], _) => none
    | (_, rest) => some (true, rest)
  | cs => some (false, cs)

def readExponent? : Rest → Option (Bool × Rest)
  | c :: cs =>
    if c = 'e' ∨ c = 'E' then
      let unsigned := match cs with
        | '+' :: rest => rest
        | '-' :: rest => rest
        | rest => rest
      match splitDigits unsigned with
      | ([], _) => none
      | (_, rest) => some (true, rest)
    else some (false, c :: cs)
  | [] => some (false, [])

def readNumber? (cs : Rest) : Option (JsonValue × Rest) := do
  let (negative, cs) := match cs with
    | '-' :: rest => (true, rest)
    | cs => (false, cs)
  let (whole, cs) ← readWhole? cs
  let (fraction, cs) ← readFraction? cs
  let (exponent, cs) ← readExponent? cs
  return (if negative || fraction || exponent then .otherNumber else .natural whole, cs)

/-- `word` and what follows it. -/
def readWord? : (word : List Char) → Rest → Option Rest
  | [], cs => some cs
  | w :: word, c :: cs => if w = c then readWord? word cs else none
  | _ :: _, [] => none

mutual

/-- A value; `depth` more levels may be opened. -/
def readValue? : (fuel depth : Nat) → Rest → Option (JsonValue × Rest)
  | 0, _, _ => none
  | fuel + 1, depth, cs =>
    match skipBlanks cs with
    | '"' :: rest => do
      let (content, rest) ← readString rest
      return (.string content, rest)
    | '[' :: rest =>
      if depth = 0 then none
      else match skipBlanks rest with
        | ']' :: rest => some (.array [], rest)
        | rest => do
          let (items, rest) ← readItems? fuel (depth - 1) rest
          return (.array items, rest)
    | '\x7b' :: rest =>
      if depth = 0 then none
      else match skipBlanks rest with
        | '\x7d' :: rest => some (.object [], rest)
        | rest => do
          let (fields, rest) ← readFields? fuel (depth - 1) rest
          return (.object fields, rest)
    | 't' :: rest => (readWord? "rue".toList rest).map fun rest => (.boolean true, rest)
    | 'f' :: rest => (readWord? "alse".toList rest).map fun rest => (.boolean false, rest)
    | 'n' :: rest => (readWord? "ull".toList rest).map fun rest => (.null, rest)
    | rest => readNumber? rest

/-- Items, of one at least, up to the closing bracket. -/
def readItems? : (fuel depth : Nat) → Rest → Option (List JsonValue × Rest)
  | 0, _, _ => none
  | fuel + 1, depth, cs => do
    let (item, rest) ← readValue? fuel depth cs
    match skipBlanks rest with
    | ',' :: rest =>
      let (items, rest) ← readItems? fuel depth rest
      return (item :: items, rest)
    | ']' :: rest => return ([item], rest)
    | _ => none

/-- Fields, of one at least, up to the closing brace. -/
def readFields? : (fuel depth : Nat) → Rest → Option (List (Option String × JsonValue) × Rest)
  | 0, _, _ => none
  | fuel + 1, depth, cs => do
    let '"' :: rest := skipBlanks cs | none
    let (key, rest) ← readString rest
    let ':' :: rest := skipBlanks rest | none
    let (value, rest) ← readValue? fuel depth rest
    match skipBlanks rest with
    | ',' :: rest =>
      let (fields, rest) ← readFields? fuel depth rest
      return ((key, value) :: fields, rest)
    | '\x7d' :: rest => return ([(key, value)], rest)
    | _ => none

end

def parse? (source : String) : Option JsonValue := do
  let cs := source.toList
  let (value, rest) ← readValue? (2 * cs.length + 2) maxDepth cs
  if (skipBlanks rest).isEmpty then return value else none

end ImageDerivative.JsonReader
