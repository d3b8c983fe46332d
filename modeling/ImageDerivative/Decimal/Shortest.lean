import ImageDerivative.Decimal.Binary

/-! The shortest decimal that reads back as a given number. The decimals that do
form an interval around the number; its ends belong to it when the coefficient is
even. Of the grids of 1, 2, 3, … digits the first one with a point in the interval
is taken, and of its two points beside the number the nearer one. -/
namespace ImageDerivative.Shortest

/-- `coefficient * 10 ^ exponent`. -/
structure Decimal where
  coefficient : Nat
  exponent : Int
  deriving DecidableEq, Repr

/-- `c * 10 ^ k ≤ m * 2 ^ e`. -/
def decimalLe (c : Nat) (k : Int) (m : Nat) (e : Int) : Bool :=
  c * Nat.pow 10 k.toNat * Nat.pow 2 (-e).toNat ≤ m * Nat.pow 2 e.toNat * Nat.pow 10 (-k).toNat

/-- `m * 2 ^ e ≤ c * 10 ^ k`. -/
def binaryLe (m : Nat) (e : Int) (c : Nat) (k : Int) : Bool :=
  m * Nat.pow 2 e.toNat * Nat.pow 10 (-k).toNat ≤ c * Nat.pow 10 k.toNat * Nat.pow 2 (-e).toNat

/-- The numbers that round to `m * 2 ^ e`, in quarters of its unit. -/
structure Interval where
  low : Nat
  high : Nat
  /-- The exponent of a quarter. -/
  exponent : Int
  closed : Bool

def Interval.of (format : BinaryFormat) (m : Nat) (e : Int) : Interval :=
  let narrow := m = format.halfRange ∧ e > format.minExponent
  { low := 4 * m - (if narrow then 1 else 2)
    high := 4 * m + 2
    exponent := e - 2
    closed := m % 2 = 0 }

def Interval.contains (i : Interval) (c : Nat) (k : Int) : Bool :=
  if i.closed then binaryLe i.low i.exponent c k && decimalLe c k i.high i.exponent
  else !decimalLe c k i.low i.exponent && !binaryLe i.high i.exponent c k

/-- The greatest `c` with `c * 10 ^ k ≤ m * 2 ^ e`. -/
def floorAt (m : Nat) (e k : Int) : Nat :=
  (m * Nat.pow 2 e.toNat * Nat.pow 10 (-k).toNat) / (Nat.pow 10 k.toNat * Nat.pow 2 (-e).toNat)

/-- The point of the grid `10 ^ k` in the interval that is nearest to `m * 2 ^ e`. -/
def onGrid? (i : Interval) (m : Nat) (e k : Int) : Option Nat :=
  let below := floorAt m e k
  match i.contains below k, i.contains (below + 1) k with
  | true, true =>
    -- Twice the number against the sum of both points.
    if decimalLe (2 * below + 1) k (2 * m) e then some (below + 1) else some below
  | true, false => some below
  | false, true => some (below + 1)
  | false, false => none

/-- The least exponent of a power of ten above `m * 2 ^ e`, looked for downwards
from `start`. -/
def magnitude (m : Nat) (e : Int) : (steps : Nat) → (start : Int) → Int
  | 0, start => start
  | steps + 1, start =>
    if decimalLe 1 (start - 1) m e then start else magnitude m e steps (start - 1)

/-- The first grid, of at least `digits` digits, with a point in the interval. -/
def search (i : Interval) (m : Nat) (e top : Int) : (tries digits : Nat) → Decimal
  | 0, _ => ⟨m, 0⟩
  | tries + 1, digits =>
    let k := top - Int.ofNat digits
    match onGrid? i m e k with
    | some c => ⟨c, k⟩
    | none => search i m e top tries (digits + 1)

def ofBinary (format : BinaryFormat) (m : Nat) (e : Int) : Decimal :=
  let top := magnitude m e 1000 400
  search (Interval.of format m e) m e top 20 1

/-- The digits of a decimal without an exponent. -/
def Decimal.positional (d : Decimal) : String :=
  let digits := Nat.toDigits 10 d.coefficient
  if d.exponent ≥ 0 then
    if d.coefficient = 0 then String.ofList digits
    else String.ofList (digits ++ List.replicate d.exponent.toNat '0')
  else
    let places := (-d.exponent).toNat
    let padded := List.replicate (places + 1 - digits.length) '0' ++ digits
    let whole := padded.take (padded.length - places)
    let fraction := ((padded.drop (padded.length - places)).reverse.dropWhile (· = '0')).reverse
    String.ofList (if fraction.isEmpty then whole else whole ++ '.' :: fraction)

/-- The text of a number from its bits: digits without an exponent, no point
after a whole number. -/
def text (format : BinaryFormat) (bits : Nat) : String :=
  let magnitudeBits := bits % format.signBit
  let sign := if bits ≥ format.signBit then "-" else ""
  if magnitudeBits > format.infinity then "NaN"
  else if magnitudeBits = format.infinity then sign ++ "inf"
  else if magnitudeBits = 0 then sign ++ "0"
  else
    let (m, e) := format.decode magnitudeBits
    sign ++ (ofBinary format m e).positional

end ImageDerivative.Shortest

namespace ImageDerivative

def singleText (x : Float32) : String := Shortest.text .single x.toBits.toNat

def doubleText (x : Float) : String := Shortest.text .double x.toBits.toNat

end ImageDerivative
