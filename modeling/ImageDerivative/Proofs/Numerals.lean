import Mathlib.Tactic.Common
import Mathlib.Algebra.Group.Nat.Defs
import ImageDerivative.Bytes

/-! Numbers of a fixed width. A number that fits is read back as it was written, in
either order of its bytes, bytes are written again as they were read, and no bytes tell a
number that does not fit. -/
namespace ImageDerivative.Bytes

theorem ofLittleEndian_toLittleEndian {width n : Nat} (fits : n < 256 ^ width) :
    ofLittleEndian (toLittleEndian width n) = n := by
  induction width generalizing n with
  | zero =>
    rw [Nat.pow_zero] at fits
    rw [toLittleEndian, ofLittleEndian]
    omega
  | succ width ih =>
    rw [Nat.pow_succ] at fits
    have rest : n / 256 < 256 ^ width := Nat.div_lt_of_lt_mul (by omega)
    rw [toLittleEndian, ofLittleEndian, ih rest, UInt8.toNat_ofNat']
    omega

theorem ofBigEndian_reverse (bytes : Bytes) : ofBigEndian bytes.reverse = ofLittleEndian bytes := by
  induction bytes with
  | nil => rfl
  | cons b rest ih =>
    rw [ofBigEndian] at ih
    rw [ofBigEndian, List.reverse_cons, List.foldl_append, ih, ofLittleEndian]
    simp only [List.foldl_cons, List.foldl_nil]
    omega

theorem ofBigEndian_toBigEndian {width n : Nat} (fits : n < 256 ^ width) :
    ofBigEndian (toBigEndian width n) = n := by
  rw [toBigEndian, ofBigEndian_reverse, ofLittleEndian_toLittleEndian fits]

/-- Bytes are written again as they were read. -/
theorem toLittleEndian_ofLittleEndian (bytes : Bytes) :
    toLittleEndian bytes.length (ofLittleEndian bytes) = bytes := by
  induction bytes with
  | nil => rfl
  | cons b rest ih =>
    have bound := b.toNat_lt
    have low : UInt8.ofNat (b.toNat + 256 * ofLittleEndian rest) = b := by
      apply UInt8.toNat_inj.mp
      rw [UInt8.toNat_ofNat', Nat.add_mul_mod_self_left]
      exact Nat.mod_eq_of_lt bound
    have high : (b.toNat + 256 * ofLittleEndian rest) / 256 = ofLittleEndian rest := by omega
    rw [ofLittleEndian, List.length_cons, toLittleEndian, low, high, ih]

theorem toBigEndian_ofBigEndian (bytes : Bytes) :
    toBigEndian bytes.length (ofBigEndian bytes) = bytes := by
  rw [toBigEndian, ← List.reverse_reverse bytes, ofBigEndian_reverse, List.length_reverse,
    toLittleEndian_ofLittleEndian, List.reverse_reverse]

theorem ofLittleEndian_lt (bytes : Bytes) : ofLittleEndian bytes < 256 ^ bytes.length := by
  induction bytes with
  | nil => exact Nat.zero_lt_one
  | cons b rest ih =>
    have low := b.toNat_lt
    rw [ofLittleEndian, List.length_cons, Nat.pow_succ]
    omega

theorem ofBigEndian_lt (bytes : Bytes) : ofBigEndian bytes < 256 ^ bytes.length := by
  have bound := ofLittleEndian_lt bytes.reverse
  rwa [← ofBigEndian_reverse, List.reverse_reverse, List.length_reverse] at bound

end ImageDerivative.Bytes
