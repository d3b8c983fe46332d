/-! Byte strings and the fixed-width numbers written in them. A number of `w`
bytes is read most significant first (`ofBigEndian`) or least significant first
(`ofLittleEndian`), and written back by the functions beside them. -/
namespace ImageDerivative

abbrev Bytes := List UInt8

namespace Bytes

def ofText (text : String) : Bytes := text.toUTF8.data.toList

def ofBigEndian (bytes : Bytes) : Nat :=
  bytes.foldl (fun n b => n * 256 + b.toNat) 0

def ofLittleEndian : Bytes → Nat
  | [] => 0
  | b :: rest => b.toNat + 256 * ofLittleEndian rest

/-- The `width` low bytes of `n`, least significant first. -/
def toLittleEndian : (width n : Nat) → Bytes
  | 0, _ => []
  | width + 1, n => UInt8.ofNat n :: toLittleEndian width (n / 256)

/-- The `width` low bytes of `n`, most significant first. -/
def toBigEndian (width n : Nat) : Bytes := (toLittleEndian width n).reverse

@[simp] theorem length_toLittleEndian (width n : Nat) :
    (toLittleEndian width n).length = width := by
  induction width generalizing n with
  | zero => rfl
  | succ width ih => simp [toLittleEndian, ih]

@[simp] theorem length_toBigEndian (width n : Nat) : (toBigEndian width n).length = width := by
  simp [toBigEndian]

/-- What follows `head` in `bytes`, if `bytes` starts with it. -/
def after? : (head bytes : Bytes) → Option Bytes
  | [], bytes => some bytes
  | _ :: _, [] => none
  | h :: head, b :: bytes => if h = b then after? head bytes else none

theorem after?_eq_some_iff {head bytes rest : Bytes} :
    after? head bytes = some rest ↔ bytes = head ++ rest := by
  induction head generalizing bytes with
  | nil => simp [after?, eq_comm]
  | cons h head ih =>
    cases bytes with
    | nil => simp [after?]
    | cons b bytes =>
      by_cases same : h = b
      · simp [after?, same, ih]
      · simp [after?, same, Ne.symm same]

/-- Of two heads of which neither continues the other, bytes begin with one at most. -/
theorem after?_eq_none_of_after? {head other bytes rest : Bytes} (starts : after? head bytes = some rest)
    (apart : ¬ head <+: other ∧ ¬ other <+: head) : after? other bytes = none := by
  cases also : after? other bytes with
  | none => rfl
  | some behind =>
    have first : head <+: bytes := ⟨rest, (after?_eq_some_iff.mp starts).symm⟩
    have second : other <+: bytes := ⟨behind, (after?_eq_some_iff.mp also).symm⟩
    cases List.prefix_or_prefix_of_prefix first second with
    | inl longer => exact absurd longer apart.1
    | inr shorter => exact absurd shorter apart.2

def startsWith (bytes head : Bytes) : Bool := (after? head bytes).isSome

def slice? (bytes : Bytes) (start count : Nat) : Option Bytes :=
  let piece := (bytes.drop start).take count
  if piece.length = count ∧ (count ≠ 0 ∨ start ≤ bytes.length) then some piece else none

theorem slice?_eq (bytes : Bytes) (start : Nat) {count : Nat} (some : count ≠ 0) :
    slice? bytes start count =
      if start + count ≤ bytes.length then .some ((bytes.drop start).take count) else none := by
  have length : ((bytes.drop start).take count).length = min count (bytes.length - start) := by
    rw [List.length_take, List.length_drop]
  have whole : min count (bytes.length - start) = count ↔ start + count ≤ bytes.length := by omega
  simp only [slice?, length, whole, some, ne_eq, not_false_eq_true, true_or, and_true]

theorem slice?_eq_some_iff {bytes piece : Bytes} {start count : Nat} (some : count ≠ 0) :
    slice? bytes start count = .some piece ↔
      start + count ≤ bytes.length ∧ piece = (bytes.drop start).take count := by
  rw [slice?_eq bytes start some]
  split
  · next inside => simp [inside, eq_comm]
  · next outside => simp [outside]

/-- A slice is whatever stands at its start and is of its length. -/
theorem slice?_eq_some_iff_prefix {bytes piece : Bytes} {start count : Nat} :
    slice? bytes start count = some piece ↔
      piece.length = count ∧ piece <+: bytes.drop start ∧ (count ≠ 0 ∨ start ≤ bytes.length) := by
  unfold slice?
  simp only [Option.ite_none_right_eq_some, Option.some.injEq]
  constructor
  · rintro ⟨⟨whole, inside⟩, rfl⟩
    exact ⟨whole, List.take_prefix _ _, inside⟩
  · rintro ⟨rfl, stands, inside⟩
    have same := List.prefix_iff_eq_take.mp stands
    exact ⟨⟨congrArg List.length same.symm, inside⟩, same.symm⟩

theorem slice?_append {before piece behind : Bytes} {start count : Nat}
    (first : before.length = start) (length : piece.length = count) (some : count ≠ 0) :
    slice? (before ++ (piece ++ behind)) start count = .some piece := by
  refine (slice?_eq_some_iff some).mpr ⟨?_, ?_⟩
  · simp only [List.length_append]
    omega
  · rw [List.drop_left' first, List.take_left' length]

def hexDigit (n : Nat) : Char := (Nat.digitChar n)

def toHex (bytes : Bytes) : String :=
  String.ofList (bytes.flatMap fun b => [hexDigit (b.toNat / 16), hexDigit (b.toNat % 16)])

/-- Two upper-case digits for each byte, the form shown in messages. -/
def toUpperHex (bytes : Bytes) : String := (toHex bytes).toUpper

end Bytes

end ImageDerivative
