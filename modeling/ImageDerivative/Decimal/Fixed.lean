import ImageDerivative.Decimal.Binary

/-! Decimals with a fixed number of places. The last place is rounded to the
nearest, and to the even one of two. -/
namespace ImageDerivative.Fixed

/-- `units` of the last place, with a point before the last `places` digits. -/
def ofUnits (places units : Nat) : String :=
  let digits := Nat.toDigits 10 units
  let padded := List.replicate (places + 1 - digits.length) '0' ++ digits
  let whole := padded.take (padded.length - places)
  if places = 0 then String.ofList whole
  else String.ofList (whole ++ '.' :: padded.drop (padded.length - places))

/-- The text of a finite number from its bits without the sign. -/
def text (format : BinaryFormat) (places bits : Nat) : String :=
  let (m, e) := format.decode bits
  let (numerator, denominator) := BinaryFormat.shifted (m * Nat.pow 10 places) 1 e
  ofUnits places (BinaryFormat.roundQuotient numerator denominator)

end ImageDerivative.Fixed
