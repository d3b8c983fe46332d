import Mathlib
import ImageDerivative.Text.Lower

/-! Small letters by Unicode do not depend on whether the capitals from A to Z have been
made small before. -/
namespace ImageDerivative.Text

/-- The capitals from A to Z with their small forms. -/
def basicLetters : List (Char × Char) :=
  "ABCDEFGHIJKLMNOPQRSTUVWXYZ".toList.zip "abcdefghijklmnopqrstuvwxyz".toList

theorem toLower_cases (c : Char) : (c, c.toLower) ∈ basicLetters ∨ c.toLower = c := by
  have all : ∀ n ∈ List.range' 65 26, (Char.ofNat n, (Char.ofNat n).toLower) ∈ basicLetters := by
    decide +kernel
  by_cases capital : c.toNat ∈ List.range' 65 26
  · have listed := all c.toNat capital
    rw [Char.ofNat_toNat] at listed
    exact .inl listed
  · right
    unfold Char.toLower
    split
    · next within =>
      obtain ⟨low, high⟩ : 65 ≤ c.toNat ∧ c.toNat ≤ 90 := within
      exact absurd (List.mem_range'_1.mpr ⟨low, by omega⟩) capital
    · rfl

/-- What a capital and its small form share, every character shares with its small form. -/
theorem apply_toLower {α : Type} {f : Char → α}
    (same : ∀ letter ∈ basicLetters, f letter.2 = f letter.1) (c : Char) : f c.toLower = f c := by
  cases toLower_cases c with
  | inl capital => exact same _ capital
  | inr small => rw [small]

theorem lowerChar_toLower : ∀ c : Char, lowerChar c.toLower = lowerChar c :=
  apply_toLower (by decide +kernel)

theorem caseIgnorable_toLower : ∀ c : Char,
    CaseTable.holds CaseTable.caseIgnorable c.toLower = CaseTable.holds CaseTable.caseIgnorable c :=
  apply_toLower (by decide +kernel)

theorem cased_toLower : ∀ c : Char,
    CaseTable.holds CaseTable.cased c.toLower = CaseTable.holds CaseTable.cased c :=
  apply_toLower (by decide +kernel)

theorem toLower_eq_iff {other : Char}
    (apart : ∀ letter ∈ basicLetters, letter.2 ≠ other ∧ letter.1 ≠ other) (c : Char) :
    c.toLower = other ↔ c = other := by
  have same := apply_toLower (f := fun c => decide (c = other))
    (fun letter listed => by simp [apart letter listed]) c
  simpa using same

theorem toLower_eq_sigma_iff (c : Char) : c.toLower = 'Σ' ↔ c = 'Σ' :=
  toLower_eq_iff (by decide +kernel) c

theorem leadsToCased_map_toLower (cs : List Char) :
    leadsToCased (cs.map Char.toLower) = leadsToCased cs := by
  unfold leadsToCased
  induction cs with
  | nil => rfl
  | cons c rest ih =>
    simp only [List.map_cons, List.dropWhile_cons, caseIgnorable_toLower]
    split
    · exact ih
    · simp only [List.head?_cons, Option.any_some, cased_toLower]

theorem lowerFrom_map_toLower (before cs : List Char) :
    lowerFrom (before.map Char.toLower) (cs.map Char.toLower) = lowerFrom before cs := by
  induction cs generalizing before with
  | nil => rfl
  | cons c rest ih =>
    have onward := ih (c :: before)
    rw [List.map_cons] at onward
    simp only [List.map_cons, lowerFrom, onward, lowerIn, toLower_eq_sigma_iff, lowerChar_toLower,
      leadsToCased_map_toLower]

theorem lower_toLower (text : String) : lower text.toLower = lower text := by
  unfold lower String.toLower
  rw [String.toList_map]
  exact congrArg String.ofList (lowerFrom_map_toLower [] text.toList)

/-- Texts that differ only in capitals from A to Z have the same small letters. -/
theorem lower_eq_of_toLower_eq {a b : String} (same : a.toLower = b.toLower) :
    lower a = lower b := by
  rw [← lower_toLower a, same, lower_toLower]

end ImageDerivative.Text
