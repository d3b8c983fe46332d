import Mathlib
import ImageDerivative.Proofs.Cache.Calls
import ImageDerivative.Proofs.Imaging.RecipeKey

/-! The names that derivatives are stored under when the hashes are digests in hexadecimal.
Such a name is a single one inside the directory and never that of the manifest, and a
content key tells both digests. -/
namespace ImageDerivative

namespace Bytes

theorem ofText_append (a b : String) : ofText (a ++ b) = ofText a ++ ofText b := by
  simp [ofText, String.toUTF8]

theorem toHex_append (a b : Bytes) : toHex (a ++ b) = toHex a ++ toHex b := by
  rw [toHex, List.flatMap_append, String.ofList_append]
  rfl

theorem toList_toHex_cons (b : UInt8) (rest : Bytes) :
    (toHex (b :: rest)).toList =
      hexDigit (b.toNat / 16) :: hexDigit (b.toNat % 16) :: (toHex rest).toList := by
  simp [toHex]

theorem length_ofText_toHex (bytes : Bytes) : (ofText (toHex bytes)).length = 2 * bytes.length := by
  have single : ∀ n < 256, (ofText (toHex [UInt8.ofNat n])).length = 2 := by decide +kernel
  induction bytes with
  | nil => rfl
  | cons b rest ih =>
    have two := single b.toNat b.toNat_lt
    rw [UInt8.ofNat_toNat] at two
    rw [← List.singleton_append, toHex_append, ofText_append, List.length_append, two, ih,
      List.length_append, List.length_singleton]
    omega

theorem hexDigit_inj {m n : Nat} (small : m < 16) (short : n < 16)
    (same : hexDigit m = hexDigit n) : m = n := by
  have all : ∀ m < 16, ∀ n < 16, hexDigit m = hexDigit n → m = n := by decide
  exact all m small n short same

theorem toHex_inj {a b : Bytes} (same : toHex a = toHex b) : a = b := by
  induction a generalizing b with
  | nil =>
    cases b with
    | nil => rfl
    | cons b rest =>
      have digits := congrArg String.toList same
      rw [toList_toHex_cons] at digits
      contradiction
  | cons a rest ih =>
    have digits := congrArg String.toList same
    cases b with
    | nil =>
      rw [toList_toHex_cons] at digits
      contradiction
    | cons b others =>
      rw [toList_toHex_cons, toList_toHex_cons] at digits
      obtain ⟨high, digits⟩ := List.cons.inj digits
      obtain ⟨low, digits⟩ := List.cons.inj digits
      have first := a.toNat_lt
      have second := b.toNat_lt
      have upper := hexDigit_inj (by omega) (by omega) high
      have lower := hexDigit_inj (by omega) (by omega) low
      have byte : a = b := UInt8.toNat_inj.mp (by omega)
      rw [byte, ih (String.toList_inj.mp digits)]

/-- Neither the character between names of a path nor the one between hashes is a digit. -/
theorem toHex_free (bytes : Bytes) : '/' ∉ (toHex bytes).toList ∧ ':' ∉ (toHex bytes).toList := by
  have digits : ∀ n < 16, '/' ≠ hexDigit n ∧ ':' ≠ hexDigit n := by decide
  induction bytes with
  | nil => exact ⟨List.not_mem_nil, List.not_mem_nil⟩
  | cons b rest ih =>
    have byte := b.toNat_lt
    have high := digits (b.toNat / 16) (by omega)
    have low := digits (b.toNat % 16) (by omega)
    rw [toList_toHex_cons]
    simp only [List.mem_cons, not_or]
    exact ⟨⟨high.1, low.1, ih.1⟩, high.2, low.2, ih.2⟩

end Bytes

theorem Sha256.length_digest (message : Bytes) : (digest message).length = 32 := by
  simp [digest, State.toBytes]

/-- A content key of digests tells them both. -/
theorem contentKey_inj {a b c d : Bytes} (same : contentKey a.toHex b.toHex = contentKey c.toHex d.toHex) :
    a = c ∧ b = d := by
  have texts := congrArg String.toList same
  simp only [contentKey, String.toList_append, List.append_assoc] at texts
  obtain ⟨first, second⟩ := append_separator_inj (Bytes.toHex_free a).2 (Bytes.toHex_free c).2 texts
  exact ⟨Bytes.toHex_inj (String.toList_inj.mp first), Bytes.toHex_inj (String.toList_inj.mp second)⟩

/-- Of a digest the first sixteen digits are kept. -/
theorem shortHash_toHex {bytes : Bytes} (long : 8 ≤ bytes.length) :
    shortHash bytes.toHex = Bytes.toHex (bytes.take 8) := by
  have length : (bytes.take 8).length = 8 := List.length_take_of_le long
  have digits : (Bytes.ofText bytes.toHex).take namePrefixLength =
      Bytes.ofText (Bytes.toHex (bytes.take 8)) := by
    have whole : bytes.toHex = Bytes.toHex (bytes.take 8) ++ Bytes.toHex (bytes.drop 8) := by
      rw [← Bytes.toHex_append, List.take_append_drop]
    rw [whole, Bytes.ofText_append]
    exact List.take_left' (by rw [Bytes.length_ofText_toHex, length]; rfl)
  have enough : ¬ (Bytes.ofText bytes.toHex).length < namePrefixLength := by
    rw [Bytes.length_ofText_toHex, namePrefixLength]
    omega
  simp only [shortHash, if_neg enough, digits, Utf8.decode?_ofText, Option.getD_some]

namespace Path

theorem not_mem_of_mem_splitOn {α : Type} [DecidableEq α] (separator : α) (xs : List α) :
    ∀ part ∈ xs.splitOn separator, separator ∉ part := by
  induction xs with
  | nil => simp
  | cons x xs ih =>
    rw [List.splitOn_cons_eq_if_modifyHead]
    split
    next => simpa using ih
    next apart =>
      cases parts : xs.splitOn separator with
      | nil => simp
      | cons first rest =>
        rw [parts, List.forall_mem_cons] at ih
        rw [List.modifyHead_cons, List.forall_mem_cons]
        refine ⟨?_, ih.2⟩
        rw [List.mem_cons, not_or]
        exact ⟨fun same => apart (by simp [same]), ih.1⟩

theorem slash_not_mem_of_mem_pieces {path : Path} {piece : String} (member : piece ∈ pieces path) :
    '/' ∉ piece.toList := by
  rw [pieces_eq, List.mem_map] at member
  obtain ⟨part, listed, rfl⟩ := member
  rw [String.toList_ofList]
  exact not_mem_of_mem_splitOn '/' _ part listed

theorem slash_not_mem_fileName {path : Path} {name : String} (last : fileName? path = some name) :
    '/' ∉ name.toList := by
  obtain ⟨component, found, named⟩ := Option.bind_eq_some_iff.mp last
  cases component with
  | root | current | parent => cases named
  | name text =>
    cases named
    have member := List.mem_of_getLast? found
    have listed : Component.name name ∈ (pieces path).filterMap fun piece =>
        if piece = "" ∨ piece = "." then none
        else if piece = ".." then some .parent
        else some (.name piece) := by
      unfold components at member
      simp only at member
      split at member
      · simpa using member
      · split at member
        · simpa using member
        · exact member
    obtain ⟨piece, inside, made⟩ := List.mem_filterMap.mp listed
    split at made
    next => cases made
    next =>
      split at made
      next => cases made
      next =>
        cases made
        exact slash_not_mem_of_mem_pieces inside

theorem slash_not_mem_extension {name extension : String}
    (found : extensionOfName? name = some extension) (whole : '/' ∉ name.toList) :
    '/' ∉ extension.toList := by
  unfold extensionOfName? at found
  simp only at found
  split at found
  next => cases found
  next =>
    cases found
    intro member
    rw [String.toList_ofList, List.mem_reverse] at member
    exact whole (List.mem_reverse.mp ((List.takeWhile_prefix _).subset member))

theorem slash_not_mem_lowerExtension (path : Path) : '/' ∉ (lowerExtension path).toList := by
  have small (c : Char) : c.toLower = '/' ↔ c = '/' := Text.toLower_eq_iff (by decide +kernel) c
  unfold lowerExtension String.toLower
  rw [String.toList_map, List.mem_map]
  rintro ⟨c, member, lowered⟩
  obtain rfl := (small c).mp lowered
  cases found : extension? path with
  | none =>
    simp [found] at member
  | some extension =>
    rw [found, Option.getD_some] at member
    obtain ⟨name, last, ending⟩ := Option.bind_eq_some_iff.mp found
    exact slash_not_mem_extension ending (slash_not_mem_fileName last) member

end Path

/-- A name inside a directory that is one step and not the manifest's. -/
structure IsLeaf (name : String) : Prop where
  whole : '/' ∉ name.toList
  named : name ≠ "" ∧ name ≠ "." ∧ name ≠ ".."
  other : name ≠ Manifest.fileName

namespace IsLeaf

theorem placeOf {name : String} (leaf : IsLeaf name) (place : Place) :
    Cache.placeOf place name = place ++ [name] :=
  FileTree.target_of_not_mem place leaf.whole leaf.named

theorem storedName {source params : Bytes} (first : source.length = 32) (last : params.length = 32)
    (path : Path) :
    IsLeaf (storedName source.toHex params.toHex (Path.lowerExtension path)) := by
  have dash := Cache.dash_mem_storedName source.toHex params.toHex (Path.lowerExtension path)
  have apart {other : String} (plain : '-' ∉ other.toList) :
      ImageDerivative.storedName source.toHex params.toHex (Path.lowerExtension path) ≠ other :=
    fun same => plain (same ▸ dash)
  refine ⟨?_, ⟨apart (by decide), apart (by decide), apart (by decide)⟩, apart (by decide)⟩
  unfold ImageDerivative.storedName
  rw [shortHash_toHex (by omega), shortHash_toHex (by omega)]
  simp only
  split <;> simp [String.toList_append, Bytes.toHex_free, Path.slash_not_mem_lowerExtension]

end IsLeaf

end ImageDerivative
