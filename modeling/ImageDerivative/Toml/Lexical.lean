import ImageDerivative.Decimal.Reader
import ImageDerivative.Json.Reader
import ImageDerivative.Toml.Value

/-! The parts of TOML that do not nest: blanks and comments, keys, strings, numbers,
dates. A reader takes the characters ahead and answers what it has read and what
is left, or nothing if the characters are not of its form. -/
namespace ImageDerivative.Toml

abbrev Chars := List Char

/-- Reads an `α` from the front of some characters. -/
abbrev Reader (α : Type) := Chars → Option (α × Chars)

def isBlank (c : Char) : Bool := c = ' ' || c = '\t'

def skipBlanks (cs : Chars) : Chars := cs.dropWhile isBlank

/-- What may stand in a comment: no control character but the tab. -/
def isCommentChar (c : Char) : Bool := c = '\t' || (c.toNat ≥ 0x20 && c.toNat ≠ 0x7F)

def skipComment : Chars → Chars
  | '#' :: rest => rest.dropWhile isCommentChar
  | cs => cs

/-- A line feed, or a carriage return with one. -/
def readNewline? : Chars → Option Chars
  | '\n' :: rest => some rest
  | '\r' :: '\n' :: rest => some rest
  | _ => none

/-- The rest of a line after its content: blanks, a comment, the end. -/
def endLine? (cs : Chars) : Option Chars :=
  match skipComment (skipBlanks cs) with
  | [] => some []
  | rest => readNewline? rest

/-- Blanks, comments and line ends, as they may stand in an array. -/
def skipLines : (fuel : Nat) → Chars → Chars
  | 0, cs => cs
  | fuel + 1, cs =>
    let rest := skipComment (skipBlanks cs)
    match readNewline? rest with
    | some rest => skipLines fuel rest
    | none => rest

/-- A character that stands for itself in a string between quotes. -/
def isPlain (c : Char) : Bool := isCommentChar c && c ≠ '"' && c ≠ '\\'

/-- A character that stands for itself in a literal string. -/
def isLiteral (c : Char) : Bool := isCommentChar c && c ≠ '\''

/-- A character by its number in `digits` hexadecimal digits. -/
def readCode? (digits : Nat) (cs : Chars) : Option (Char × Chars) := do
  let code ← JsonReader.hexNumber? (cs.take digits)
  if cs.length < digits then none
  else if code < 0xD800 ∨ (0xE000 ≤ code ∧ code < 0x110000) then
    return (Char.ofNat code, cs.drop digits)
  else none

/-- What follows a backslash. -/
def readEscape? : Reader Char
  | 'b' :: rest => some ('\x08', rest)
  | 'f' :: rest => some ('\x0c', rest)
  | 'n' :: rest => some ('\n', rest)
  | 'r' :: rest => some ('\r', rest)
  | 't' :: rest => some ('\t', rest)
  | '"' :: rest => some ('"', rest)
  | '\\' :: rest => some ('\\', rest)
  | 'u' :: rest => readCode? 4 rest
  | 'U' :: rest => readCode? 8 rest
  | _ => none

/-- A string on one line, whose opening quote has been read. -/
def readBasic : (fuel : Nat) → (done : Chars) → Reader Chars
  | 0, _, _ => none
  | fuel + 1, done, cs =>
    match cs with
    | '"' :: rest => some (done.reverse, rest)
    | '\\' :: rest => do
      let (c, rest) ← readEscape? rest
      readBasic fuel (c :: done) rest
    | c :: rest => if isPlain c then readBasic fuel (c :: done) rest else none
    | [] => none

def skipBlankLines : (fuel : Nat) → Chars → Chars
  | 0, cs => cs
  | fuel + 1, cs =>
    match readNewline? (skipBlanks cs) with
    | some rest => skipBlankLines fuel rest
    | none => skipBlanks cs

/-- A backslash at the end of a line joins it with the next text. -/
def skipJoin? (cs : Chars) : Option Chars := do
  let rest ← readNewline? (skipBlanks cs)
  return skipBlankLines (rest.length + 1) rest

/-- What a run of quotes does in a string over several lines: three close it, and
two before them may belong to it. -/
def closing? (quote : Char) (cs : Chars) : Option (Chars × Chars) :=
  let count := (cs.takeWhile (· = quote)).length
  if count < 3 then none
  else some (List.replicate (min (count - 3) 2) quote, cs.drop (min count 5))

/-- A string over several lines, whose opening quotes have been read. -/
def readMultiline : (fuel : Nat) → (done : Chars) → Reader Chars
  | 0, _, _ => none
  | fuel + 1, done, cs =>
    match closing? '"' cs with
    | some (last, rest) => some (done.reverse ++ last, rest)
    | none =>
      match cs with
      | '\\' :: rest =>
        match skipJoin? rest with
        | some rest => readMultiline fuel done rest
        | none => do
          let (c, rest) ← readEscape? rest
          readMultiline fuel (c :: done) rest
      | c :: rest =>
        match readNewline? (c :: rest) with
        | some rest => readMultiline fuel ('\n' :: done) rest
        | none => if isPlain c || c = '"' then readMultiline fuel (c :: done) rest else none
      | [] => none

def readLiteral (cs : Chars) : Option (Chars × Chars) :=
  match cs.span isLiteral with
  | (text, '\'' :: rest) => some (text, rest)
  | _ => none

def readLiteralMultiline : (fuel : Nat) → (done : Chars) → Reader Chars
  | 0, _, _ => none
  | fuel + 1, done, cs =>
    match closing? '\'' cs with
    | some (last, rest) => some (done.reverse ++ last, rest)
    | none =>
      match cs with
      | c :: rest =>
        match readNewline? (c :: rest) with
        | some rest => readLiteralMultiline fuel ('\n' :: done) rest
        | none => if isCommentChar c then readLiteralMultiline fuel (c :: done) rest else none
      | [] => none

/-- A line end right after the opening quotes does not count. -/
def dropFirstNewline (cs : Chars) : Chars := (readNewline? cs).getD cs

def asText (read : Option (Chars × Chars)) : Option (String × Chars) :=
  read.map fun (done, rest) => (String.ofList done, rest)

def readString? : Reader String := fun cs =>
  match cs with
  | '"' :: '"' :: '"' :: rest => asText (readMultiline (rest.length + 1) [] (dropFirstNewline rest))
  | '"' :: rest => asText (readBasic (rest.length + 1) [] rest)
  | '\'' :: '\'' :: '\'' :: rest =>
    asText (readLiteralMultiline (rest.length + 1) [] (dropFirstNewline rest))
  | '\'' :: rest => asText (readLiteral rest)
  | _ => none

def isBareKeyChar (c : Char) : Bool := c.isAlphanum || c = '-' || c = '_'

def readSimpleKey? : Reader String := fun cs =>
  match cs with
  | '"' :: rest => asText (readBasic (rest.length + 1) [] rest)
  | '\'' :: rest => asText (readLiteral rest)
  | cs =>
    match cs.span isBareKeyChar with
    | ([], _) => none
    | (key, rest) => some (String.ofList key, rest)

/-- Simple keys with dots between them. -/
def readKey : (fuel : Nat) → Reader (List String)
  | 0, _ => none
  | fuel + 1, cs => do
    let (key, rest) ← readSimpleKey? (skipBlanks cs)
    match skipBlanks rest with
    | '.' :: rest =>
      let (keys, rest) ← readKey fuel rest
      return (key :: keys, rest)
    | rest => return ([key], rest)

/-- How deep values may nest, and how many parts a key may have. -/
def maxDepth : Nat := 79

def readKey? : Reader (List String) := readKey maxDepth

/-- Digits with single underscores between them. -/
def readDigits (isDigit : Char → Bool) :
    (fuel : Nat) → (done : Chars) → Chars → Option (Chars × Chars)
  | 0, _, _ => none
  | fuel + 1, done, cs =>
    match cs with
    | '_' :: c :: rest =>
      if !done.isEmpty && isDigit c then readDigits isDigit fuel (c :: done) rest else none
    | c :: rest =>
      if isDigit c then readDigits isDigit fuel (c :: done) rest
      else if done.isEmpty ∨ c = '_' then none
      else some (done.reverse, c :: rest)
    | [] => if done.isEmpty then none else some (done.reverse, [])

def readDigits? (isDigit : Char → Bool) (cs : Chars) : Option (Chars × Chars) :=
  readDigits isDigit (cs.length + 1) [] cs

/-- A whole number has no zero in front of other digits. -/
def readWhole? (cs : Chars) : Option (Chars × Chars) :=
  match cs with
  | '0' :: rest => some (['0'], rest)
  | cs => readDigits? Char.isDigit cs

def integerValue? (n : Int) : Option TomlValue :=
  if -0x8000000000000000 ≤ n ∧ n < 0x8000000000000000 then some (.integer n) else none

def valueInBase (base : Nat) (digits : Chars) : Nat :=
  digits.foldl (fun n c => n * base + (JsonReader.hexDigit? c).getD 0) 0

def isOctal (c : Char) : Bool := '0' ≤ c && c ≤ '7'

def isBinary (c : Char) : Bool := c = '0' || c = '1'

def isHexadecimal (c : Char) : Bool := (JsonReader.hexDigit? c).isSome

def readInteger? : Reader TomlValue := fun cs =>
  let based := fun (isDigit : Char → Bool) (base : Nat) (cs : Chars) => do
    let (digits, rest) ← readDigits? isDigit cs
    return (← integerValue? (Int.ofNat (valueInBase base digits)), rest)
  match cs with
  | '0' :: 'x' :: rest => based isHexadecimal 16 rest
  | '0' :: 'o' :: rest => based isOctal 8 rest
  | '0' :: 'b' :: rest => based isBinary 2 rest
  | cs => do
    let (negative, unsigned) := NumberText.splitSign cs
    let (digits, rest) ← readWhole? unsigned
    let n := Int.ofNat (NumberText.digitsValue digits)
    return (← integerValue? (if negative then -n else n), rest)

/-- A fraction or an exponent has to follow the whole part of a float. What looks
like a float and is too great for one is refused. -/
def readFloat? : Reader TomlValue := fun cs => do
  let (negative, unsigned) := NumberText.splitSign cs
  let special := fun (n : NumberText) (rest : Chars) => some (TomlValue.float n.toDouble, rest)
  match unsigned with
  | 'i' :: 'n' :: 'f' :: rest => special (.infinite negative) rest
  | 'n' :: 'a' :: 'n' :: rest => special (.nan negative) rest
  | unsigned =>
    let (whole, rest) ← readWhole? unsigned
    let (fraction, rest) ← match rest with
      | '.' :: rest => readDigits? Char.isDigit rest
      | rest => some ([], rest)
    let (exponent, rest) ← match rest with
      | c :: rest =>
        if c = 'e' ∨ c = 'E' then do
          let (down, digits) := NumberText.splitSign rest
          let (digits, rest) ← readDigits? Char.isDigit digits
          let value := Int.ofNat (NumberText.digitsValue digits)
          some (some (if down then -value else value), rest)
        else some (none, c :: rest)
      | [] => some (none, [])
    if fraction.isEmpty && exponent.isNone then none
    else
      let number := NumberText.finite negative (NumberText.digitsValue (whole ++ fraction))
        (exponent.getD 0 - Int.ofNat fraction.length)
      let value := number.toDouble
      if value == 1.0 / 0.0 then none else return (.float value, rest)

def readFixed? (count : Nat) (cs : Chars) : Option (Nat × Chars) :=
  let digits := cs.take count
  if digits.length = count && digits.all Char.isDigit then
    some (NumberText.digitsValue digits, cs.drop count)
  else none

/-- Two digits whose number lies between two bounds. -/
def readField? (low high : Nat) (cs : Chars) : Option (Nat × Chars) := do
  let (n, rest) ← readFixed? 2 cs
  if low ≤ n ∧ n ≤ high then return (n, rest) else none

def expect? (c : Char) : Chars → Option Chars
  | d :: rest => if c = d then some rest else none
  | [] => none

def padded (width n : Nat) : String :=
  let digits := Nat.toDigits 10 n
  String.ofList (List.replicate (width - digits.length) '0' ++ digits)

def isLeapYear (year : Nat) : Bool := (year % 4 = 0 && year % 100 ≠ 0) || year % 400 = 0

def daysInMonth (year month : Nat) : Nat :=
  if month = 2 then if isLeapYear year then 29 else 28
  else if month = 4 ∨ month = 6 ∨ month = 9 ∨ month = 11 then 30
  else 31

def readDate? : Reader String := fun cs => do
  let (year, rest) ← readFixed? 4 cs
  let rest ← expect? '-' rest
  let (month, rest) ← readField? 1 12 rest
  let rest ← expect? '-' rest
  let (day, rest) ← readField? 1 (daysInMonth year month) rest
  return (padded 4 year ++ "-" ++ padded 2 month ++ "-" ++ padded 2 day, rest)

/-- A fraction of a second keeps nine digits, without the zeros at its end. -/
def fractionText (digits : Chars) : String :=
  match ((digits.take 9).reverse.dropWhile (· = '0')).reverse with
  | [] => ""
  | kept => "." ++ String.ofList kept

def readTime? : Reader String := fun cs => do
  let (hour, rest) ← readField? 0 23 cs
  let rest ← expect? ':' rest
  let (minute, rest) ← readField? 0 59 rest
  let rest ← expect? ':' rest
  let (second, rest) ← readField? 0 60 rest
  let text := padded 2 hour ++ ":" ++ padded 2 minute ++ ":" ++ padded 2 second
  match rest with
  | '.' :: rest =>
    match rest.span Char.isDigit with
    | ([], _) => none
    | (digits, rest) => return (text ++ fractionText digits, rest)
  | rest => return (text, rest)

/-- The distance to universal time. No distance is written with a plus sign. -/
def readOffset? : Reader String := fun cs => do
  match cs with
  | 'Z' :: rest => return ("Z", rest)
  | 'z' :: rest => return ("Z", rest)
  | sign :: rest =>
    if sign ≠ '+' ∧ sign ≠ '-' then none
    let (hour, rest) ← readField? 0 23 rest
    let rest ← expect? ':' rest
    let (minute, rest) ← readField? 0 59 rest
    let shown := if sign = '-' ∧ (hour ≠ 0 ∨ minute ≠ 0) then "-" else "+"
    return (shown ++ padded 2 hour ++ ":" ++ padded 2 minute, rest)
  | [] => none

/-- Begins like a date: four digits and a dash. -/
def looksLikeDate (cs : Chars) : Bool :=
  (readFixed? 4 cs).any fun (_, rest) => rest.head? = some '-'

/-- Begins like a time: two digits and a colon. -/
def looksLikeTime (cs : Chars) : Bool :=
  (readField? 0 23 cs).any fun (_, rest) => rest.head? = some ':'

/-- A date, a time, or both, with an offset if there are both. -/
def readDatetime? : Reader TomlValue := fun cs => do
  if looksLikeDate cs then
    let (date, rest) ← readDate? cs
    match rest with
    | delimiter :: time =>
      if (delimiter = 'T' ∨ delimiter = 't' ∨ delimiter = ' ') ∧ looksLikeTime time then
        let (time, rest) ← readTime? time
        match readOffset? rest with
        | some (offset, rest) => return (.datetime (date ++ "T" ++ time ++ offset), rest)
        | none => return (.datetime (date ++ "T" ++ time), rest)
      else return (.datetime date, rest)
    | [] => return (.datetime date, [])
  else
    let (time, rest) ← readTime? cs
    return (.datetime time, rest)

def readNumeric? : Reader TomlValue := fun cs =>
  if looksLikeDate cs || looksLikeTime cs then readDatetime? cs
  else (readFloat? cs).or (readInteger? cs)

end ImageDerivative.Toml
