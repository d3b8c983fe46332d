import ImageDerivative.Decimal.Binary

/-! Numbers as people type them: a sign, digits with a point somewhere among them,
an exponent of ten; or infinity or NaN by name. -/
namespace ImageDerivative

inductive NumberText where
  | finite (negative : Bool) (coefficient : Nat) (exponent : Int)
  | infinite (negative : Bool)
  | nan (negative : Bool)
  deriving DecidableEq, Repr

namespace NumberText

def digitsValue (digits : List Char) : Nat :=
  digits.foldl (fun n c => n * 10 + (c.toNat - '0'.toNat)) 0

/-- A sign, if there is one, and what follows. -/
def splitSign : List Char → Bool × List Char
  | '-' :: rest => (true, rest)
  | '+' :: rest => (false, rest)
  | rest => (false, rest)

/-- The exponent that a text ends with; none stands for zero. -/
def exponent? : List Char → Option Int
  | [] => some 0
  | c :: rest =>
    if c = 'e' ∨ c = 'E' then
      let (negative, digits) := splitSign rest
      if digits.isEmpty || !digits.all Char.isDigit then none
      else
        let value := Int.ofNat (digitsValue digits)
        some (if negative then -value else value)
    else none

/-- Digits, a point and digits, an exponent. One digit at least stands before the
exponent. -/
def finite? (negative : Bool) (cs : List Char) : Option NumberText := do
  let (whole, rest) := cs.span Char.isDigit
  let (fraction, rest) := match rest with
    | '.' :: rest => rest.span Char.isDigit
    | rest => ([], rest)
  if whole.isEmpty && fraction.isEmpty then none
  let exponent ← exponent? rest
  return .finite negative (digitsValue (whole ++ fraction)) (exponent - Int.ofNat fraction.length)

def parse? (text : String) : Option NumberText :=
  let (negative, cs) := splitSign text.toList
  match (String.ofList cs).toLower with
  | "inf" | "infinity" => some (.infinite negative)
  | "nan" => some (.nan negative)
  | _ => finite? negative cs

/-- The bits of the nearest number of a format. -/
def toBits (format : BinaryFormat) (n : NumberText) : Nat :=
  let sign := fun negative => if negative then format.signBit else 0
  match n with
  | .finite negative coefficient exponent => sign negative + format.ofDecimal coefficient exponent
  | .infinite negative => sign negative + format.infinity
  | .nan negative => sign negative + format.infinity + format.halfRange / 2

def toSingle (n : NumberText) : Float32 := Float32.ofBits (UInt32.ofNat (n.toBits .single))

def toDouble (n : NumberText) : Float := Float.ofBits (UInt64.ofNat (n.toBits .double))

end NumberText

/-- A natural number below `limit`, in digits after a plus sign or none. -/
def boundedNat? (limit : Nat) (text : String) : Option Nat :=
  let digits := match text.toList with
    | '+' :: rest => rest
    | cs => cs
  if digits.isEmpty || !digits.all Char.isDigit then none
  else
    let n := NumberText.digitsValue digits
    if n < limit then some n else none

end ImageDerivative
