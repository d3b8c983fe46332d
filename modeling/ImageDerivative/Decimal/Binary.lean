/-! Binary floating-point formats and the rounding of exact quotients to them. A
finite positive number is `m * 2 ^ e` with `m` below `2 ^ precision`; the grid of
the smallest numbers has the unit `2 ^ minExponent`. -/
namespace ImageDerivative

structure BinaryFormat where
  /-- The bits of `m`. -/
  precision : Nat
  minExponent : Int
  /-- The bits of infinity. -/
  infinity : Nat

namespace BinaryFormat

def single : BinaryFormat := ⟨24, -149, 0x7F800000⟩

def double : BinaryFormat := ⟨53, -1074, 0x7FF0000000000000⟩

/-- The least coefficient of a number that is not among the smallest. -/
def halfRange (format : BinaryFormat) : Nat := Nat.pow 2 (format.precision - 1)

def signBit (format : BinaryFormat) : Nat := format.infinity + format.halfRange

/-- `numerator / denominator * 2 ^ shift` as a quotient of natural numbers. -/
def shifted (numerator denominator : Nat) (shift : Int) : Nat × Nat :=
  if shift ≥ 0 then (numerator * Nat.pow 2 shift.toNat, denominator)
  else (numerator, denominator * Nat.pow 2 (-shift).toNat)

/-- The nearest natural number; of two the even one. -/
def roundQuotient (numerator denominator : Nat) : Nat :=
  let q := numerator / denominator
  let twice := 2 * (numerator % denominator)
  if twice > denominator ∨ (twice = denominator ∧ q % 2 = 1) then q + 1 else q

/-- The exponent of the power of two that is the greatest not above the quotient. -/
def floorLog2 (numerator denominator : Nat) : Int :=
  let guess : Int := Int.ofNat numerator.log2 - Int.ofNat denominator.log2
  let (n, d) := shifted numerator denominator (-guess)
  if n < d then guess - 1 else guess

/-- The bits of the number nearest to a positive quotient. A coefficient that
rounds up to a power of two carries into the exponent by itself. -/
def ofQuotient (format : BinaryFormat) (numerator denominator : Nat) : Nat :=
  let e := max format.minExponent
    (floorLog2 numerator denominator - Int.ofNat format.precision + 1)
  let (n, d) := shifted numerator denominator (-e)
  let bits := (e - format.minExponent).toNat * format.halfRange + roundQuotient n d
  min bits format.infinity

/-- Powers of ten beyond this decide by themselves that a number is zero or infinite. -/
def exponentLimit : Int := 2000

/-- The bits of the number nearest to `coefficient * 10 ^ exponent`. -/
def ofDecimal (format : BinaryFormat) (coefficient : Nat) (exponent : Int) : Nat :=
  let magnitude := Int.ofNat (Nat.toDigits 10 coefficient).length + exponent
  if coefficient = 0 ∨ magnitude < -exponentLimit then 0
  else if magnitude > exponentLimit then format.infinity
  else if exponent ≥ 0 then format.ofQuotient (coefficient * Nat.pow 10 exponent.toNat) 1
  else format.ofQuotient coefficient (Nat.pow 10 (-exponent).toNat)

/-- The coefficient and exponent of a finite number, from its bits without the sign. -/
def decode (format : BinaryFormat) (bits : Nat) : Nat × Int :=
  let half := format.halfRange
  let biased := bits / half
  if biased = 0 then (bits, format.minExponent)
  else (bits % half + half, format.minExponent + Int.ofNat (biased - 1))

end BinaryFormat

end ImageDerivative
