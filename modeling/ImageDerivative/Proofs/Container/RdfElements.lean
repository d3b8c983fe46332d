import Mathlib
import ImageDerivative.Proofs.Container.XmpPackets

/-! The element that is taken out of a packet: the shortest one that begins with the first
opening tag. It is taken out of itself again, and whatever follows it makes no difference. -/
namespace ImageDerivative.Xmp

open Text (FirstFrom stands_append_iff)

/-- From an opening tag to the only closing tag. -/
structure IsElement (element : List Char) : Prop where
  opened : rdfOpen <+: element
  closed : rdfClose <:+ element
  once : ∀ n, rdfClose <+: element.drop n → n + rdfClose.length = element.length

/-- Where a text begins with an opening tag, an element ends with the first closing tag. -/
theorem isElement_of_first {text : List Char} {length : Nat} (opened : rdfOpen <+: text)
    (closed : FirstFrom rdfClose text 0 length) :
    IsElement (text.take (length + rdfClose.length)) := by
  have parted := closed.take_add
  have inside : length + rdfClose.length ≤ text.length := by
    have fits := closed.stands.length_le
    rw [List.length_drop] at fits
    have some : 0 < rdfClose.length := by decide
    omega
  refine ⟨?_, ?_, ?_⟩
  · apply List.prefix_of_prefix_length_le opened (List.take_prefix _ _)
    have shorter : rdfOpen.length ≤ rdfClose.length := by decide
    rw [List.length_take_of_le inside]
    omega
  · rw [parted]
    exact List.suffix_append _ _
  · intro n stands
    have fits := stands.length_le
    rw [List.length_drop, List.length_take_of_le inside] at fits
    have late : length ≤ n := by
      by_contra early
      apply closed.first n (Nat.zero_le _) (Nat.not_le.mp early)
      exact stands.trans ((List.take_prefix _ _).drop n)
    have some : 0 < rdfClose.length := by decide
    rw [List.length_take_of_le inside]
    omega

namespace IsElement

variable {element : List Char}

/-- The closing tag of an element is met first at its end, whatever follows. -/
theorem exists_first (whole : IsElement element) (behind : List Char) :
    ∃ length, FirstFrom rdfClose (element ++ behind) 0 length ∧
      length + rdfClose.length = element.length := by
  obtain ⟨body, rfl⟩ := whole.closed
  have long : (body ++ rdfClose).length = body.length + rdfClose.length := List.length_append
  refine ⟨body.length, ⟨Nat.zero_le _, ?_, ?_⟩, long.symm⟩
  · rw [List.append_assoc, List.drop_left' rfl]
    exact List.prefix_append _ _
  · intro n _ before stands
    rw [stands_append_iff (by omega)] at stands
    have last := whole.once n stands
    omega

/-- An element is taken out of any text in which no opening tag begins before it. -/
theorem extractRdf_eq (whole : IsElement element) (before behind : List Char)
    (free : ∀ n < before.length, ¬ rdfOpen <+: (before ++ (element ++ behind)).drop n) :
    extractRdf (before ++ (element ++ behind)) = some element := by
  obtain ⟨length, closed, long⟩ := whole.exists_first behind
  have rest : (before ++ (element ++ behind)).drop before.length = element ++ behind :=
    List.drop_left' rfl
  refine extractRdf_eq_some_iff.mpr ⟨before.length, length, ⟨Nat.zero_le _, ?_, ?_⟩, ?_, ?_⟩
  · rw [rest]
    exact whole.opened.trans (List.prefix_append _ _)
  · exact fun n _ early => free n early
  · rwa [rest]
  · rw [rest, long, List.take_left' rfl]

end IsElement

/-- What is taken out of a packet is an element before which no opening tag begins. -/
theorem extractRdf_eq_some_iff_element {packet element : List Char} :
    extractRdf packet = some element ↔
      IsElement element ∧ ∃ before behind, packet = before ++ (element ++ behind) ∧
        ∀ n < before.length, ¬ rdfOpen <+: packet.drop n := by
  constructor
  · intro found
    obtain ⟨start, length, opened, closed, rfl⟩ := extractRdf_eq_some_iff.mp found
    refine ⟨isElement_of_first opened.stands closed, packet.take start,
      (packet.drop start).drop (length + rdfClose.length), ?_, ?_⟩
    · rw [List.take_append_drop, List.take_append_drop]
    · intro n early
      apply opened.first n (Nat.zero_le _)
      exact early.trans_le (List.length_take_le _ _)
  · rintro ⟨whole, before, behind, rfl, free⟩
    exact whole.extractRdf_eq before behind free

theorem isSome_extractRdf_iff {packet : List Char} :
    (extractRdf packet).isSome ↔ ∃ start, FirstFrom rdfOpen packet 0 start ∧
      ∃ stop, start + rdfOpen.length ≤ stop ∧ rdfClose <+: packet.drop stop := by
  have apart : ∀ i < rdfOpen.length,
      ¬ rdfOpen.drop i <+: rdfClose ∧ ¬ rdfClose <+: rdfOpen.drop i := by decide
  rw [Option.isSome_iff_exists]
  constructor
  · rintro ⟨element, found⟩
    obtain ⟨start, length, opened, closed, -⟩ := extractRdf_eq_some_iff.mp found
    have behind := (FirstFrom.behind_iff opened.stands apart).mp (FirstFrom.drop_iff.mp closed)
    exact ⟨start, opened, start + length, behind.low_le, behind.stands⟩
  · rintro ⟨start, opened, stop, reached, stands⟩
    obtain ⟨first, behind⟩ := FirstFrom.exists_of_stands reached stands
    have closed := (FirstFrom.behind_iff opened.stands apart).mpr behind
    obtain ⟨length, rfl⟩ := Nat.exists_eq_add_of_le closed.low_le
    exact ⟨_, extractRdf_eq_some_iff.mpr
      ⟨start, length, opened, FirstFrom.drop_iff.mpr closed, rfl⟩⟩

/-- An element is the one of itself. -/
theorem IsElement.extractRdf_self {element : List Char} (whole : IsElement element) :
    extractRdf element = some element := by
  have alone := whole.extractRdf_eq [] [] fun n early => absurd early (Nat.not_lt_zero n)
  rwa [List.nil_append, List.append_nil] at alone

/-- Text behind a packet with an element makes no difference. -/
theorem extractRdf_append {packet element : List Char} (found : extractRdf packet = some element)
    (text : List Char) : extractRdf (packet ++ text) = some element := by
  obtain ⟨whole, before, behind, rfl, free⟩ := extractRdf_eq_some_iff_element.mp found
  have extended : before ++ (element ++ behind) ++ text =
      before ++ (element ++ (behind ++ text)) := by
    simp only [List.append_assoc]
  rw [extended]
  apply whole.extractRdf_eq
  intro n early
  -- An opening tag that began earlier would end inside the element, so within the packet.
  have long := whole.opened.length_le
  have inside : n + rdfOpen.length ≤ (before ++ (element ++ behind)).length := by
    simp only [List.length_append]
    omega
  rw [← extended, stands_append_iff inside]
  exact free n early

/-- An element is found exactly if a closing tag stands behind the first opening tag. It begins
with the first opening tag and ends with its only closing tag, and nothing else does so. It is
found again in itself, and in the packet with any text after it. -/
theorem extractRdf_firstElement (packet : List Char) :
    ((extractRdf packet).isSome ↔ ∃ start, FirstFrom rdfOpen packet 0 start ∧
      ∃ stop, start + rdfOpen.length ≤ stop ∧ rdfClose <+: packet.drop stop) ∧
    ∀ element,
      (extractRdf packet = some element ↔
        IsElement element ∧ ∃ before behind, packet = before ++ (element ++ behind) ∧
          ∀ n < before.length, ¬ rdfOpen <+: packet.drop n) ∧
      (extractRdf packet = some element → extractRdf element = some element ∧
        ∀ text, extractRdf (packet ++ text) = some element) := by
  refine ⟨isSome_extractRdf_iff, fun element => ⟨extractRdf_eq_some_iff_element, ?_⟩⟩
  intro found
  obtain ⟨whole, -⟩ := extractRdf_eq_some_iff_element.mp found
  exact ⟨whole.extractRdf_self, extractRdf_append found⟩

/-- Behind a closing tag, an element in which another one opens. -/
def crowdedPacket : List Char := "</rdf:RDF>é<rdf:RDF>ü<rdf:RDF></rdf:RDF></rdf:RDF>".toList

def crowdedElement : List Char := "<rdf:RDF>ü<rdf:RDF></rdf:RDF>".toList

theorem extractRdf_firstElement_crowded :
    extractRdf crowdedPacket = some crowdedElement ∧ IsElement crowdedElement ∧
      extractRdf crowdedElement = some crowdedElement ∧
      extractRdf (crowdedPacket ++ rdfClose) = some crowdedElement := by
  have found : extractRdf crowdedPacket = some crowdedElement := by decide +kernel
  obtain ⟨chosen, kept⟩ := (extractRdf_firstElement crowdedPacket).2 crowdedElement
  obtain ⟨again, extended⟩ := kept found
  exact ⟨found, (chosen.mp found).1, again, extended rdfClose⟩

end ImageDerivative.Xmp
