import Mathlib
import ImageDerivative.Container.Xmp
import ImageDerivative.Proofs.Text.Occurrences

/-! The RDF element of an XMP packet. The tags are searched for in the text, and found where
their bytes stand first in the packet, whatever else the bytes hold. -/
namespace ImageDerivative.Xmp

open Text (FirstFrom)
open Utf8 (asciiBytes readFrom)

theorem splitAtFirst?_eq_some_iff {word before text front rest : List Char} :
    splitAtFirst? word before text = some (front, rest) ↔
      ∃ n, FirstFrom word text 0 n ∧ front = before.reverse ++ text.take n ∧
        rest = text.drop n := by
  induction text generalizing before with
  | nil =>
    unfold splitAtFirst?
    by_cases here : word <+: []
    · rw [if_pos (List.isPrefixOf_iff_prefix.mpr here)]
      constructor
      · intro found
        cases found
        exact ⟨0, FirstFrom.zero_iff.mpr here, (List.append_nil _).symm, rfl⟩
      · rintro ⟨n, _, rfl, rfl⟩
        simp
    · rw [if_neg (fun found => here (List.isPrefixOf_iff_prefix.mp found))]
      constructor
      · intro found
        cases found
      · rintro ⟨n, ⟨_, stands, _⟩, _⟩
        rw [List.drop_nil] at stands
        exact absurd stands here
  | cons c text ih =>
    unfold splitAtFirst?
    by_cases here : word <+: c :: text
    · rw [if_pos (List.isPrefixOf_iff_prefix.mpr here)]
      have begins := FirstFrom.zero_iff.mpr here
      constructor
      · intro found
        cases found
        exact ⟨0, begins, (List.append_nil _).symm, rfl⟩
      · rintro ⟨n, first, rfl, rfl⟩
        rw [first.unique begins]
        simp
    · rw [if_neg (fun found => here (List.isPrefixOf_iff_prefix.mp found))]
      simp only [ih, FirstFrom.cons_iff here]
      constructor
      · rintro ⟨n, first, rfl, rfl⟩
        exact ⟨n + 1, ⟨n, rfl, first⟩, by simp, rfl⟩
      · rintro ⟨_, ⟨n, rfl, first⟩, rfl, rfl⟩
        exact ⟨n, first, by simp, rfl⟩

/-- The element goes from the first opening tag to the end of the first closing tag that does
not stand before it. -/
theorem extractRdf_eq_some_iff {packet element : List Char} :
    extractRdf packet = some element ↔
      ∃ start length, FirstFrom rdfOpen packet 0 start ∧
        FirstFrom rdfClose (packet.drop start) 0 length ∧
        element = (packet.drop start).take (length + rdfClose.length) := by
  unfold extractRdf
  simp only [bind, Option.bind_eq_some_iff, Prod.exists, splitAtFirst?_eq_some_iff, pure]
  constructor
  · rintro ⟨_, _, ⟨start, opened, _, rfl⟩, _, _, ⟨length, closed, rfl, _⟩, same⟩
    refine ⟨start, length, opened, closed, ?_⟩
    rw [closed.take_add, ← Option.some.inj same]
    rfl
  · rintro ⟨start, length, opened, closed, rfl⟩
    refine ⟨_, _, ⟨start, opened, rfl, rfl⟩, _, _, ⟨length, closed, rfl, rfl⟩, ?_⟩
    rw [closed.take_add]
    rfl

def openBytes : Bytes := Bytes.ofText "<rdf:RDF"

def closeBytes : Bytes := Bytes.ofText "</rdf:RDF>"

theorem ascii_rdfOpen : Utf8.IsAscii rdfOpen := by decide

theorem ascii_rdfClose : Utf8.IsAscii rdfClose := by decide

theorem openBytes_eq : openBytes = asciiBytes rdfOpen := by decide

theorem closeBytes_eq : closeBytes = asciiBytes rdfClose := by decide

/-- No closing tag begins inside an opening tag. -/
theorem closed_iff {bytes : Bytes} {start stop : Nat} (opened : openBytes <+: bytes.drop start) :
    FirstFrom closeBytes bytes start stop ↔
      FirstFrom closeBytes bytes (start + openBytes.length) stop :=
  FirstFrom.behind_iff opened (by decide)

/-- The element of a packet is read of the bytes between the tags. -/
theorem rdfOfBytes_eq_some_iff {bytes : Bytes} {text : String} :
    rdfOfBytes bytes = some text ↔
      ∃ start length, FirstFrom openBytes bytes 0 start ∧
        FirstFrom closeBytes (bytes.drop start) 0 length ∧
        text = Utf8.decodeLossy ((bytes.drop start).take (length + closeBytes.length)) := by
  have some_open : rdfOpen ≠ [] := by decide
  have some_close : rdfClose ≠ [] := by decide
  rw [rdfOfBytes, Option.map_eq_some_iff]
  change (∃ element, extractRdf (readFrom none bytes) = some element ∧ _) ↔ _
  simp only [extractRdf_eq_some_iff, openBytes_eq, closeBytes_eq]
  constructor
  · rintro ⟨_, ⟨_, _, opened, closed, rfl⟩, rfl⟩
    obtain ⟨start, first, rfl⟩ := (Utf8.first_readFrom_iff ascii_rdfOpen some_open).mp opened
    rw [Utf8.drop_readFrom ascii_rdfOpen some_open first.stands] at closed ⊢
    obtain ⟨length, last, rfl⟩ := (Utf8.first_readFrom_iff ascii_rdfClose some_close).mp closed
    refine ⟨start, length, first, last, ?_⟩
    rw [Utf8.take_readFrom ascii_rdfClose some_close last]
    exact String.ofList_toList
  · rintro ⟨start, length, first, last, rfl⟩
    have opened := Utf8.readFrom_first ascii_rdfOpen some_open first
    have closed := Utf8.readFrom_first ascii_rdfClose some_close last
    have behind := Utf8.drop_readFrom ascii_rdfOpen some_open first.stands
    refine ⟨_, ⟨_, _, opened, behind ▸ closed, rfl⟩, ?_⟩
    rw [behind, Utf8.take_readFrom ascii_rdfClose some_close last]
    exact String.ofList_toList

/-- An element is found exactly if the bytes of an opening tag stand in the packet, and those
of a closing tag behind the first of them. It is what is read of the bytes from the first
opening tag to the end of the first closing tag behind it. -/
theorem rdfOfBytes_eq_decodeLossy (bytes : Bytes) :
    ((rdfOfBytes bytes).isSome ↔ ∃ start, FirstFrom openBytes bytes 0 start ∧
      ∃ stop, start + openBytes.length ≤ stop ∧ closeBytes <+: bytes.drop stop) ∧
    ∀ text, rdfOfBytes bytes = some text ↔
      ∃ start stop, FirstFrom openBytes bytes 0 start ∧
        FirstFrom closeBytes bytes (start + openBytes.length) stop ∧
        text = Utf8.decodeLossy
          ((bytes.drop start).take (stop - start + closeBytes.length)) := by
  have found_iff : ∀ text, rdfOfBytes bytes = some text ↔
      ∃ start stop, FirstFrom openBytes bytes 0 start ∧
        FirstFrom closeBytes bytes (start + openBytes.length) stop ∧
        text = Utf8.decodeLossy
          ((bytes.drop start).take (stop - start + closeBytes.length)) := by
    intro text
    rw [rdfOfBytes_eq_some_iff]
    constructor
    · rintro ⟨start, length, opened, closed, rfl⟩
      refine ⟨start, start + length, opened, ?_, ?_⟩
      · exact (closed_iff opened.stands).mp (FirstFrom.drop_iff.mp closed)
      · rw [Nat.add_sub_cancel_left]
    · rintro ⟨start, stop, opened, closed, rfl⟩
      have closed := (closed_iff opened.stands).mpr closed
      obtain ⟨length, rfl⟩ := Nat.exists_eq_add_of_le closed.low_le
      refine ⟨start, length, opened, FirstFrom.drop_iff.mpr closed, ?_⟩
      rw [Nat.add_sub_cancel_left]
  refine ⟨?_, found_iff⟩
  rw [Option.isSome_iff_exists]
  constructor
  · rintro ⟨text, found⟩
    obtain ⟨start, stop, opened, closed, _⟩ := (found_iff text).mp found
    exact ⟨start, opened, stop, closed.low_le, closed.stands⟩
  · rintro ⟨start, opened, stop, reached, stands⟩
    obtain ⟨first, closed⟩ := FirstFrom.exists_of_stands reached stands
    exact ⟨_, (found_iff _).mpr ⟨start, first, opened, closed, rfl⟩⟩

end ImageDerivative.Xmp
