import Mathlib
import ImageDerivative.Proofs.Chains
import ImageDerivative.Proofs.Container.TiffFormat
import ImageDerivative.Proofs.Numerals

/-! What is read from a chain of directories: the fields of the first usable tag, in whatever
order the numbers are written and wherever directories and values stand. A chain that comes
back to where it was tells no more than it did before. -/
namespace ImageDerivative.Tiff

namespace Order

theorem length_write (order : Order) (width n : Nat) : (order.write width n).length = width := by
  cases order with
  | little => exact Bytes.length_toLittleEndian width n
  | big => exact Bytes.length_toBigEndian width n

theorem number_write (order : Order) {width n : Nat} (fits : n < 256 ^ width) :
    order.number (order.write width n) = n := by
  cases order with
  | little => exact Bytes.ofLittleEndian_toLittleEndian fits
  | big => exact Bytes.ofBigEndian_toBigEndian fits

end Order

variable {order : Order} {data : Bytes}

/-- Of two pieces that stand together, each stands at its place. -/
theorem stands_append {first second : Bytes} {start : Nat}
    (stands : first ++ second <+: data.drop start) :
    first <+: data.drop start ∧ second <+: data.drop (start + first.length) := by
  refine ⟨(List.prefix_append _ _).trans stands, ?_⟩
  rw [← List.drop_drop]
  simpa using stands.drop first.length

theorem number?_write {start width n : Nat} (stands : order.write width n <+: data.drop start)
    (some : width ≠ 0) (fits : n < 256 ^ width) :
    File.number? ⟨data, order⟩ start width = .some n := by
  have slice := Bytes.slice?_eq_some_iff_prefix.mpr ⟨order.length_write width n, stands, .inl some⟩
  rw [File.number?, slice, Option.map_some, order.number_write fits]

theorem number?_link {start : Nat} {link : UInt32}
    (stands : order.write 4 link.toNat <+: data.drop start) :
    File.number? ⟨data, order⟩ start 4 = some link.toNat :=
  number?_write stands (by decide) link.toNat_lt

namespace Tag

variable {tag : Tag} {start : Nat} {place : Bytes}

/-- The four parts of an entry. -/
theorem parts_of_stands (stands : tag.encode order place <+: data.drop start) :
    File.number? ⟨data, order⟩ start 2 = some tag.number.toNat ∧
      File.number? ⟨data, order⟩ (start + 2) 2 = some tag.type.toNat ∧
      File.number? ⟨data, order⟩ (start + 4) 4 = some tag.count.toNat ∧
      place <+: data.drop (start + 8) := by
  obtain ⟨number, stands⟩ := stands_append stands
  obtain ⟨type, stands⟩ := stands_append stands
  obtain ⟨count, stands⟩ := stands_append stands
  simp only [order.length_write] at type count stands
  exact ⟨number?_write number (by decide) tag.number.toNat_lt,
    number?_write type (by decide) tag.type.toNat_lt,
    number?_write count (by decide) tag.count.toNat_lt, stands⟩

theorem entryValue?_eq (placed : tag.Placed order data place)
    (stands : tag.encode order place <+: data.drop start) :
    File.entryValue? ⟨data, order⟩ start = tag.value? := by
  obtain ⟨-, type, count, last⟩ := parts_of_stands stands
  have length : tag.count.toNat * File.unitLength tag.type.toNat = tag.length := rfl
  rw [File.entryValue?, type, count]
  simp only [Option.bind_eq_bind, Option.bind_some, length]
  cases placed with
  | @inside value padding whole room told =>
    have short : tag.length ≤ 4 := by
      rw [List.length_append] at room
      omega
    have reached : start + 8 ≤ data.length := by
      have fits := last.length_le
      rw [room, List.length_drop] at fits
      omega
    rw [if_pos short, told]
    exact Bytes.slice?_eq_some_iff_prefix.mpr
      ⟨whole, (List.prefix_append _ _).trans last, .inr reached⟩
  | outside offset long whole there told =>
    rw [if_neg (Nat.not_le.mpr long), number?_link last, Option.bind_some, told]
    exact Bytes.slice?_eq_some_iff_prefix.mpr ⟨whole, there, .inl (by omega)⟩
  | beyond offset long overrun untold =>
    rw [if_neg (Nat.not_le.mpr long), number?_link last, Option.bind_some, untold,
      Bytes.slice?_eq _ _ (by omega), if_neg (Nat.not_le.mpr overrun)]

theorem fieldsOfValue?_iptc (value : Bytes) :
    File.fieldsOfValue? File.iptcTag value = datasetFields? value := by
  unfold File.fieldsOfValue? datasetFields?
  cases empty : (Iim.parse value).isEmpty <;> simp [empty]

theorem fieldsOfValue?_photoshop (value : Bytes) :
    File.fieldsOfValue? File.photoshopTag value =
      (PhotoshopResource.findIptc? value).bind datasetFields? := by
  unfold File.fieldsOfValue? datasetFields?
  have apart : File.photoshopTag ≠ File.iptcTag := by decide
  simp only [if_neg apart]
  cases PhotoshopResource.findIptc? value with
  | none => rfl
  | some datasets => cases empty : (Iim.parse datasets).isEmpty <;> simp [empty]

theorem entryFields?_eq (placed : tag.Placed order data place)
    (stands : tag.encode order place <+: data.drop start) :
    File.entryFields? ⟨data, order⟩ start = some tag.fields? := by
  obtain ⟨number, -⟩ := parts_of_stands stands
  rw [File.entryFields?, number, entryValue?_eq placed stands]
  simp only [Option.bind_eq_bind, Option.bind_some, Tag.fields?]
  by_cases iptc : tag.number.toNat = File.iptcTag
  · rw [if_pos (.inl iptc), if_pos iptc, iptc]
    exact congrArg some (congrArg _ (funext fieldsOfValue?_iptc))
  by_cases photoshop : tag.number.toNat = File.photoshopTag
  · rw [if_pos (.inr photoshop), if_neg iptc, if_pos photoshop, photoshop, Option.bind_assoc]
    exact congrArg some (congrArg _ (funext fieldsOfValue?_photoshop))
  · rw [if_neg (not_or.mpr ⟨iptc, photoshop⟩), if_neg iptc, if_neg photoshop]
    rfl

end Tag

theorem firstFields?_eq {start : Nat} {tags : List Tag} (entries : EntriesAt order data start tags) :
    File.firstFields? ⟨data, order⟩ start tags.length = some (tags.findSome? Tag.fields?) := by
  induction tags generalizing start with
  | nil => rfl
  | cons tag rest ih =>
    obtain ⟨⟨place, placed, stands⟩, entries⟩ := entries
    rw [List.length_cons, File.firstFields?, Tag.entryFields?_eq placed stands,
      findSome?_cons_or, Option.bind_eq_bind, Option.bind_some]
    cases tag.fields? with
    | some fields => rfl
    | none => exact ih entries

theorem fieldsUnder?_cons (number : Nat) (tag : Tag) (rest : List Tag) :
    fieldsUnder? number (tag :: rest) =
      if tag.number.toNat = number then tag.fields? else fieldsUnder? number rest := by
  by_cases same : tag.number.toNat = number <;> simp [fieldsUnder?, same]

theorem fieldsUnder?_eq_none {number : Nat} {tags : List Tag}
    (absent : ∀ tag ∈ tags, tag.number.toNat ≠ number) : fieldsUnder? number tags = none := by
  have none : (tags.find? fun tag => tag.number.toNat = number) = none :=
    List.find?_eq_none.mpr fun tag member => by simpa using absent tag member
  rw [fieldsUnder?, none, Option.bind_none]

/-- With the tags in order, the first usable one is the one of raw datasets if that is usable. -/
theorem findSome?_fields? {tags : List Tag}
    (ascending : tags.Pairwise fun a b => a.number < b.number) :
    tags.findSome? Tag.fields? =
      (fieldsUnder? File.iptcTag tags).or (fieldsUnder? File.photoshopTag tags) := by
  induction tags with
  | nil => rfl
  | cons tag rest ih =>
    obtain ⟨above, ascending⟩ := List.pairwise_cons.mp ascending
    -- The tags that follow have greater numbers.
    have later : ∀ number ≤ tag.number.toNat, fieldsUnder? number rest = none := by
      intro number low
      apply fieldsUnder?_eq_none
      intro other member same
      have greater := UInt16.lt_iff_toNat_lt.mp (above other member)
      omega
    have increasing : File.iptcTag < File.photoshopTag := by decide
    rw [findSome?_cons_or, ih ascending, fieldsUnder?_cons, fieldsUnder?_cons]
    by_cases iptc : tag.number.toNat = File.iptcTag
    · rw [if_pos iptc, if_neg (by omega), later _ iptc.ge, Option.none_or]
    by_cases photoshop : tag.number.toNat = File.photoshopTag
    · rw [if_neg iptc, if_pos photoshop, later _ photoshop.ge, later _ (by omega),
        Option.none_or, Option.none_or, Option.or_none]
    · have unusable : tag.fields? = none := by
        rw [Tag.fields?, if_neg iptc, if_neg photoshop]
      rw [if_neg iptc, if_neg photoshop, unusable, Option.none_or]

/-- What the first usable tag of a directory tells. -/
def Listing.first? (listing : Listing) : Option Iim.Fields := listing.tags.findSome? Tag.fields?

theorem findSome?_first? {chain : List Listing}
    (ascending : ∀ listing ∈ chain, listing.Ascending) :
    chain.findSome? Listing.first? = chain.findSome? Listing.fields? := by
  induction chain with
  | nil => rfl
  | cons listing rest ih =>
    obtain ⟨here, behind⟩ := List.forall_mem_cons.mp ascending
    have same : listing.first? = listing.fields? := findSome?_fields? here
    rw [findSome?_cons_or, findSome?_cons_or, same, ih behind]

/-- One directory: its fields, or else those behind its link. -/
theorem chainFields?_step {start next : UInt32} {listing : Listing} (used : start ≠ 0)
    (stands : listing.StandsAt order data start.toNat next) (visits : Nat) :
    File.chainFields? ⟨data, order⟩ (visits + 1) start.toNat =
      listing.first?.or (File.chainFields? ⟨data, order⟩ visits next.toNat) := by
  have some : start.toNat ≠ 0 := fun zero => used (UInt32.toNat_inj.mp zero)
  have counted := number?_write stands.counted (by decide) listing.few
  rw [File.chainFields?, if_neg some, counted]
  simp only [Option.bind_eq_bind, Option.bind_some, firstFields?_eq stands.entries,
    number?_link stands.linked]
  rw [Listing.first?]
  cases listing.tags.findSome? Tag.fields? <;> rfl

/-- All directories of a chain, if there are visits enough. -/
theorem chainFields?_linked {start stop : UInt32} {chain : List Listing}
    (linked : Linked order data start chain stop) (visits : Nat) :
    File.chainFields? ⟨data, order⟩ (visits + chain.length) start.toNat =
      (chain.findSome? Listing.first?).or (File.chainFields? ⟨data, order⟩ visits stop.toNat) := by
  induction linked with
  | done start => rfl
  | @onward start next stop listing rest used stands behind ih =>
    rw [List.length_cons, ← Nat.add_assoc, chainFields?_step used stands, ih, findSome?_cons_or,
      Option.or_assoc]

theorem chainFields?_zero (visits : Nat) : File.chainFields? ⟨data, order⟩ visits 0 = none := by
  cases visits with
  | zero => rfl
  | succ visits => exact if_pos rfl

/-- On the way into a circle and round it nothing is found if no tag is usable, however many
visits there are. -/
theorem chainFields?_circle {back : UInt32} {circle : List Listing}
    (round : Linked order data back circle back) (some : circle ≠ [])
    (barren : ∀ listing ∈ circle, listing.first? = none) (visits : Nat) {start : UInt32}
    {rest : List Listing} (onward : Linked order data start rest back)
    (useless : ∀ listing ∈ rest, listing.first? = none) :
    File.chainFields? ⟨data, order⟩ visits start.toNat = none := by
  induction visits generalizing start rest with
  | zero => rfl
  | succ visits ih =>
    -- At the end of the way the circle begins again.
    obtain ⟨listing, ahead, onward, useless⟩ : ∃ listing ahead,
        Linked order data start (listing :: ahead) back ∧
          ∀ other ∈ listing :: ahead, Listing.first? other = none := by
      cases onward with
      | done =>
        obtain ⟨listing, ahead, rfl⟩ := List.exists_cons_of_ne_nil some
        exact ⟨listing, ahead, round, barren⟩
      | onward used stands behind => exact ⟨_, _, .onward used stands behind, useless⟩
    obtain ⟨nothing, useless⟩ := List.forall_mem_cons.mp useless
    cases onward with
    | onward used stands behind =>
      rw [chainFields?_step used stands, nothing, Option.none_or]
      exact ih behind useless

theorem ofBytes?_eq {first : UInt32} (begins : header order first <+: data) :
    File.ofBytes? data = some ⟨data, order⟩ ∧
      File.number? ⟨data, order⟩ 4 4 = some first.toNat := by
  have whole : header order first <+: data.drop 0 := begins
  obtain ⟨mark, numbers⟩ := stands_append whole
  obtain ⟨version, link⟩ := stands_append numbers
  have two : order.mark.length = 2 := by cases order <;> rfl
  rw [two] at version
  rw [two, order.length_write] at link
  refine ⟨?_, number?_link link⟩
  have front : data.take 2 = order.mark := by
    rw [← two]
    exact (List.prefix_iff_eq_take.mp mark).symm
  have known := number?_write version (by decide) (by decide)
  rw [File.ofBytes?, front]
  cases order with
  | little => simp only [Order.mark, Option.bind_eq_bind, Option.bind_some, known]; rfl
  | big => simp only [Order.mark, Option.bind_eq_bind, Option.bind_some, known]; rfl

theorem iptcFields?_header {first : UInt32} (begins : header order first <+: data) :
    iptcFields? data = File.chainFields? ⟨data, order⟩ File.maxDirectories first.toNat := by
  obtain ⟨file, link⟩ := ofBytes?_eq begins
  rw [iptcFields?, file, Option.bind_eq_bind, Option.bind_some, link, Option.bind_eq_bind,
    Option.bind_some]

theorem iptcFields?_of_written {chain : List Listing} (written : Written order data chain)
    (few : chain.length ≤ 64) (ascending : ∀ listing ∈ chain, listing.Ascending) :
    iptcFields? data = chain.findSome? Listing.fields? := by
  obtain ⟨first, begins, linked⟩ := written
  have visits : File.maxDirectories = (64 - chain.length) + chain.length := by
    unfold File.maxDirectories
    omega
  rw [iptcFields?_header begins, visits, chainFields?_linked linked, UInt32.toNat_zero,
    chainFields?_zero, Option.or_none, findSome?_first? ascending]

theorem iptcFields?_of_circular {lead circle : List Listing}
    (circular : Circular order data lead circle)
    (useless : ∀ listing ∈ lead ++ circle, ∀ tag ∈ listing.tags, tag.fields? = none) :
    iptcFields? data = none := by
  obtain ⟨some, first, back, begins, onward, round⟩ := circular
  have barren : ∀ listing ∈ lead ++ circle, Listing.first? listing = none :=
    fun listing member => List.findSome?_eq_none_iff.mpr (useless listing member)
  obtain ⟨before, inside⟩ := List.forall_mem_append.mp barren
  rw [iptcFields?_header begins]
  exact chainFields?_circle round some inside _ onward before

/-- The fields come from the first directory with a usable tag, where raw datasets count before
those in resource blocks; the order that numbers are written in makes no difference; and in a
circle of directories without a usable tag there are none. -/
theorem iptcFields?_written :
    (∀ {order : Order} {data : Bytes} {chain : List Listing}, Written order data chain →
      chain.length ≤ 64 → (∀ listing ∈ chain, listing.Ascending) →
      iptcFields? data = chain.findSome? Listing.fields?) ∧
    (∀ {little big : Bytes} {chain : List Listing}, Written .little little chain →
      Written .big big chain → chain.length ≤ 64 → (∀ listing ∈ chain, listing.Ascending) →
      iptcFields? little = iptcFields? big) ∧
    ∀ {order : Order} {data : Bytes} {lead circle : List Listing},
      Circular order data lead circle →
      (∀ listing ∈ lead ++ circle, ∀ tag ∈ listing.tags, tag.fields? = none) →
      iptcFields? data = none := by
  refine ⟨iptcFields?_of_written, ?_, iptcFields?_of_circular⟩
  intro little big chain first second few ascending
  exact (iptcFields?_of_written first few ascending).trans
    (iptcFields?_of_written second few ascending).symm

/-- A resource block with the name "Hi", without padding. -/
def sampleResources : Bytes :=
  PhotoshopResource.marker ++ [4, 4, 0, 0, 0, 0, 0, 7, 0x1C, 2, 5, 0, 2, 0x48, 0x69]

def widthSample : Tag := ⟨256, 3, 1, some [2, 0]⟩

def beyondSample : Tag := ⟨33723, 7, 100, none⟩

def blankSample : Tag := ⟨33723, 7, 3, some [0x1C, 2, 5]⟩

def usableSample : Tag := ⟨34377, 1, 19, some sampleResources⟩

def sampleChain : List Listing :=
  [{ tags := [widthSample, beyondSample] }, { tags := [blankSample, usableSample] }]

/-- The directories stand one behind the other, and the long value at the end. -/
def sampleFile (order : Order) : Bytes :=
  header order 8 ++
    (order.write 2 2 ++ widthSample.encode order [2, 0, 0, 0] ++
      beyondSample.encode order (order.write 4 4096) ++ order.write 4 38) ++
    (order.write 2 2 ++ blankSample.encode order [0x1C, 2, 5, 0] ++
      usableSample.encode order (order.write 4 68) ++ order.write 4 0) ++ sampleResources

theorem written_sampleFile (order : Order) : Written order (sampleFile order) sampleChain := by
  have first : Listing.StandsAt order (sampleFile order)
      { tags := [widthSample, beyondSample] } 8 38 := by
    refine ⟨?_, ⟨⟨_, .inside [0, 0] rfl rfl rfl, ?_⟩, ⟨_, .beyond 4096 ?_ ?_ rfl, ?_⟩, trivial⟩, ?_⟩
    all_goals cases order <;> decide
  have second : Listing.StandsAt order (sampleFile order)
      { tags := [blankSample, usableSample] } 38 0 := by
    refine ⟨?_, ⟨⟨_, .inside [0] rfl rfl rfl, ?_⟩, ⟨_, .outside 68 ?_ rfl ?_ rfl, ?_⟩, trivial⟩, ?_⟩
    all_goals cases order <;> decide
  refine ⟨8, by cases order <;> decide, ?_⟩
  exact .onward (by decide) first (.onward (by decide) second (.done 0))

/-- One directory that is linked to itself. -/
def circularSample : Bytes :=
  header .big 8 ++
    (Order.big.write 2 1 ++ beyondSample.encode .big (Order.big.write 4 4096) ++
      Order.big.write 4 8)

theorem circular_sample : Circular .big circularSample [] [{ tags := [beyondSample] }] := by
  have stands : Listing.StandsAt .big circularSample { tags := [beyondSample] } 8 8 := by
    refine ⟨?_, ⟨⟨_, .beyond 4096 ?_ ?_ rfl, ?_⟩, trivial⟩, ?_⟩
    all_goals decide
  exact ⟨List.cons_ne_nil _ _, 8, 8, by decide, .done 8, .onward (by decide) stands (.done 8)⟩

theorem iptcFields?_written_sample :
    Written .little (sampleFile .little) sampleChain ∧ Written .big (sampleFile .big) sampleChain ∧
    (∀ listing ∈ sampleChain, listing.Ascending) ∧
    iptcFields? (sampleFile .little) = some { objectName := some "Hi" } ∧
    iptcFields? (sampleFile .little) = iptcFields? (sampleFile .big) ∧
    Circular .big circularSample [] [{ tags := [beyondSample] }] ∧
    iptcFields? circularSample = none := by
  have ascending : ∀ listing ∈ sampleChain, listing.Ascending := by
    refine List.forall_mem_cons.mpr ⟨?_, List.forall_mem_singleton.mpr ?_⟩
    all_goals unfold Listing.Ascending; decide
  have few : sampleChain.length ≤ 64 := by decide
  have told : sampleChain.findSome? Listing.fields? = some { objectName := some "Hi" } := by
    decide +kernel
  have useless : ∀ listing ∈ [] ++ [({ tags := [beyondSample] } : Listing)],
      ∀ tag ∈ listing.tags, tag.fields? = none :=
    List.forall_mem_singleton.mpr (List.forall_mem_singleton.mpr (by decide +kernel))
  obtain ⟨read, agree, circle⟩ := iptcFields?_written
  have little := written_sampleFile .little
  have big := written_sampleFile .big
  exact ⟨little, big, ascending, (read little few ascending).trans told,
    agree little big few ascending, circular_sample, circle circular_sample useless⟩

end ImageDerivative.Tiff
