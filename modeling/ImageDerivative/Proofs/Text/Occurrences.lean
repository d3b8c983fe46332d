import Mathlib
import ImageDerivative.Proofs.Text.LossyReading

/-! Where a word stands in a text first, and that the first place of an ASCII word in bytes
becomes its first place in the text that is read of them. -/
namespace ImageDerivative

namespace Text

/-- `n` is the first position from `low` on at which `word` stands in `text`. -/
structure FirstFrom {α : Type} (word text : List α) (low n : Nat) : Prop where
  low_le : low ≤ n
  stands : word <+: text.drop n
  first : ∀ m, low ≤ m → m < n → ¬ word <+: text.drop m

/-- Where a word ends within a text it stands whatever follows the text. -/
theorem stands_append_iff {α : Type} {word text : List α} {n : Nat}
    (inside : n + word.length ≤ text.length) (more : List α) :
    word <+: (text ++ more).drop n ↔ word <+: text.drop n := by
  rw [List.drop_append_of_le_length (by omega)]
  constructor
  · intro stands
    apply List.prefix_of_prefix_length_le stands (List.prefix_append _ more)
    rw [List.length_drop]
    omega
  · intro stands
    exact stands.trans (List.prefix_append _ more)

namespace FirstFrom

variable {α : Type} {word text : List α} {low n m : Nat}

theorem unique (one : FirstFrom word text low n) (other : FirstFrom word text low m) : n = m := by
  rcases Nat.lt_trichotomy n m with before | same | behind
  · exact absurd one.stands (other.first n one.low_le before)
  · exact same
  · exact absurd other.stands (one.first m other.low_le behind)

theorem exists_of_stands (reached : low ≤ m) (stands : word <+: text.drop m) :
    ∃ n, FirstFrom word text low n := by
  classical
  have some : ∃ n, low ≤ n ∧ word <+: text.drop n := ⟨m, reached, stands⟩
  obtain ⟨above, here⟩ := Nat.find_spec some
  refine ⟨Nat.find some, above, here, ?_⟩
  intro other from_low before there
  exact Nat.find_min some before ⟨from_low, there⟩

/-- Positions in what is left of a text are counted from where it begins. -/
theorem drop_iff : FirstFrom word (text.drop low) 0 n ↔ FirstFrom word text low (low + n) := by
  constructor
  · rintro ⟨_, stands, first⟩
    refine ⟨Nat.le_add_right _ _, by rwa [List.drop_drop] at stands, ?_⟩
    intro m above before there
    apply first (m - low) (Nat.zero_le _) (by omega)
    rwa [List.drop_drop, Nat.add_sub_cancel' above]
  · rintro ⟨_, stands, first⟩
    refine ⟨Nat.zero_le _, by rwa [List.drop_drop], ?_⟩
    intro m _ before there
    apply first (low + m) (Nat.le_add_right _ _) (by omega)
    rwa [List.drop_drop] at there

/-- Positions at which the word does not stand may be passed over. -/
theorem raise_iff {high : Nat} (above : low ≤ high)
    (free : ∀ m, low ≤ m → m < high → ¬ word <+: text.drop m) :
    FirstFrom word text low n ↔ FirstFrom word text high n := by
  constructor
  · rintro ⟨reached, stands, first⟩
    refine ⟨?_, stands, fun m from_high => first m (above.trans from_high)⟩
    by_contra short
    exact free n reached (Nat.not_le.mp short) stands
  · rintro ⟨reached, stands, first⟩
    refine ⟨above.trans reached, stands, ?_⟩
    intro m from_low before
    by_cases early : m < high
    · exact free m from_low early
    · exact first m (Nat.not_lt.mp early) before

theorem zero_iff : FirstFrom word text 0 0 ↔ word <+: text := by
  constructor
  · rintro ⟨_, stands, _⟩
    exact stands
  · intro stands
    exact ⟨Nat.le_refl 0, stands, fun m _ before => absurd before (Nat.not_lt_zero m)⟩

/-- A word that does not stand at the beginning stands first where it does behind that. -/
theorem cons_iff {c : α} (apart : ¬ word <+: c :: text) :
    FirstFrom word (c :: text) 0 n ↔ ∃ m, n = m + 1 ∧ FirstFrom word text 0 m := by
  constructor
  · rintro ⟨_, stands, first⟩
    cases n with
    | zero => exact absurd stands apart
    | succ m =>
      refine ⟨m, rfl, Nat.zero_le _, stands, ?_⟩
      intro k _ before
      exact first (k + 1) (Nat.zero_le _) (Nat.succ_lt_succ before)
  · rintro ⟨m, rfl, _, stands, first⟩
    refine ⟨Nat.zero_le _, stands, ?_⟩
    intro k _ before
    cases k with
    | zero => exact apart
    | succ k => exact first k (Nat.zero_le _) (Nat.lt_of_succ_lt_succ before)

/-- A word that can begin nowhere inside a tag is first met behind the tag. -/
theorem behind_iff {tag : List α} (tagged : tag <+: text.drop low)
    (apart : ∀ i < tag.length, ¬ tag.drop i <+: word ∧ ¬ word <+: tag.drop i) :
    FirstFrom word text low n ↔ FirstFrom word text (low + tag.length) n := by
  apply raise_iff (Nat.le_add_right _ _)
  intro m reached inside stands
  obtain ⟨i, rfl⟩ := Nat.exists_eq_add_of_le reached
  have within : i < tag.length := by omega
  have rest : tag.drop i <+: text.drop (low + i) := by
    rw [← List.drop_drop]
    exact tagged.drop i
  rcases List.prefix_or_prefix_of_prefix rest stands with longer | shorter
  · exact (apart i within).1 longer
  · exact (apart i within).2 shorter

/-- The text up to a word and the word. -/
theorem take_add (found : FirstFrom word text low n) :
    text.take (n + word.length) = text.take n ++ word := by
  obtain ⟨rest, parted⟩ := found.stands
  rw [List.take_add, ← parted, List.take_left' rfl]

end FirstFrom

end Text

namespace Utf8

open Text (FirstFrom)

variable {word : List Char} {bytes : Bytes} {n : Nat}

/-- Bytes are read apart where an ASCII word stands. -/
theorem readFrom_of_stands (ascii : IsAscii word) (some : word ≠ [])
    (stands : asciiBytes word <+: bytes.drop n) :
    readFrom none bytes = readFrom none (bytes.take n) ++ readFrom none (bytes.drop n) := by
  obtain ⟨c, others, rfl⟩ := List.exists_cons_of_ne_nil some
  obtain ⟨rest, parted⟩ := stands
  have first : c.toNat < 0x80 := ascii c List.mem_cons_self
  have split := readFrom_append .none (bytes.take n) (ofNat_lt_ascii first)
    (asciiBytes others ++ rest)
  have whole : bytes.drop n = UInt8.ofNat c.toNat :: (asciiBytes others ++ rest) := parted.symm
  rwa [← whole, List.take_append_drop] at split

/-- A word of ASCII stands in the text where it stands in the bytes. -/
theorem exists_stands (ascii : IsAscii word) {x y : List Char}
    (read : readFrom none bytes = x ++ (word ++ y)) (some : word ≠ []) :
    ∃ m, asciiBytes word <+: bytes.drop m ∧ readFrom none (bytes.take m) = x := by
  obtain ⟨c, others, rfl⟩ := List.exists_cons_of_ne_nil some
  obtain ⟨first, last⟩ := List.forall_mem_cons.mp ascii
  obtain ⟨a, z, rfl, before, after⟩ := exists_of_readFrom .none first read
  obtain ⟨rest, rfl, _⟩ := exists_of_readFrom_word last after
  refine ⟨a.length, ?_, ?_⟩
  · rw [List.drop_left' rfl]
    exact List.prefix_append _ _
  · rw [List.take_left' rfl, before]

/-- The first place in the bytes is the first in the text. -/
theorem readFrom_first (ascii : IsAscii word) (some : word ≠ [])
    (found : FirstFrom (asciiBytes word) bytes 0 n) :
    FirstFrom word (readFrom none bytes) 0 (readFrom none (bytes.take n)).length := by
  have apart := readFrom_of_stands ascii some found.stands
  refine ⟨Nat.zero_le _, ?_, ?_⟩
  · obtain ⟨rest, parted⟩ := found.stands
    rw [apart, List.drop_left' rfl, ← parted, readFrom_word ascii]
    exact List.prefix_append _ _
  · intro m _ before there
    obtain ⟨y, parted⟩ := there
    have read : readFrom none bytes =
        (readFrom none bytes).take m ++ (word ++ y) := by
      rw [parted, List.take_append_drop]
    obtain ⟨k, stands, front⟩ := exists_stands ascii read some
    have late : n ≤ k := by
      by_contra early
      exact found.first k (Nat.zero_le _) (Nat.not_le.mp early) stands
    obtain ⟨between, whole⟩ := List.take_prefix_take_left late (l := bytes)
    have longer := length_readFrom_le none (bytes.take n) between
    have short := List.length_take_le m (readFrom none bytes)
    rw [whole, front] at longer
    omega

/-- Behind the bytes up to the word stands what is read of the others. -/
theorem drop_readFrom (ascii : IsAscii word) (some : word ≠ [])
    (stands : asciiBytes word <+: bytes.drop n) :
    (readFrom none bytes).drop (readFrom none (bytes.take n)).length =
      readFrom none (bytes.drop n) := by
  rw [readFrom_of_stands ascii some stands, List.drop_left' rfl]

theorem take_readFrom (ascii : IsAscii word) (some : word ≠ [])
    (found : FirstFrom (asciiBytes word) bytes 0 n) :
    (readFrom none bytes).take ((readFrom none (bytes.take n)).length + word.length) =
      readFrom none (bytes.take (n + (asciiBytes word).length)) := by
  rw [found.take_add, readFrom_append_word ascii, (readFrom_first ascii some found).take_add,
    readFrom_of_stands ascii some found.stands, List.take_left' rfl]

/-- A word of ASCII stands first in a text where the bytes before it end. -/
theorem first_readFrom_iff (ascii : IsAscii word) (some : word ≠ []) :
    FirstFrom word (readFrom none bytes) 0 n ↔
      ∃ m, FirstFrom (asciiBytes word) bytes 0 m ∧ n = (readFrom none (bytes.take m)).length := by
  constructor
  · intro found
    obtain ⟨rest, parted⟩ := found.stands
    have read : readFrom none bytes = (readFrom none bytes).take n ++ (word ++ rest) := by
      rw [parted, List.take_append_drop]
    obtain ⟨k, there, _⟩ := exists_stands ascii read some
    obtain ⟨m, first⟩ := FirstFrom.exists_of_stands (Nat.zero_le k) there
    exact ⟨m, first, found.unique (readFrom_first ascii some first)⟩
  · rintro ⟨m, first, rfl⟩
    exact readFrom_first ascii some first

end Utf8

end ImageDerivative
