/-! The arithmetic in which kernels and weighted sums are evaluated. Each
operation rounds once and sums run from left to right, so a formula means the
operations in the order in which it is written. Nothing else is assumed: what is
said of every `F` holds whatever the operations answer. -/
namespace ImageDerivative

class Single (F : Type) extends Add F, Sub F, Mul F, Div F, Neg F, OfScientific F where
  ofInt : Int → F
  abs : F → F
  floor : F → F
  ceil : F → F
  sqrt : F → F
  sin : F → F
  exp : F → F
  lt : F → F → Bool
  le : F → F → Bool
  /-- Numerical equality: zero equals minus zero, and no NaN equals itself. -/
  eq : F → F → Bool
  /-- The integer part, kept within 64 bits; zero for a NaN. -/
  toInt : F → Int

namespace Single

variable {F : Type} [Single F]

def ofNat (n : Nat) : F := ofInt (Int.ofNat n)

/-- The greater of two numbers; a NaN gives way to the other. -/
def max (a b : F) : F := if lt b a then a else if le a b then b else if eq a a then a else b

/-- The sum from left to right. An empty sum is minus zero, which changes nothing
it is added to. -/
def sum (xs : List F) : F := xs.foldl (· + ·) (-0.0)

def pi : F := 3.14159265358979323846

end Single

instance : Single Float32 where
  ofInt n := (Int64.ofInt n).toFloat32
  abs := Float32.abs
  floor := Float32.floor
  ceil := Float32.ceil
  sqrt := Float32.sqrt
  sin := Float32.sin
  exp := Float32.exp
  lt a b := a < b
  le a b := a ≤ b
  eq a b := a == b
  toInt a := a.toInt64.toInt

end ImageDerivative
