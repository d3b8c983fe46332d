import ImageDerivative.Cache.Manifest
import ImageDerivative.Proofs.Json.RoundTrip

/-! What manifests have that are made by inserting, and that writing one and loading it
again keeps its entries and leads from the key of each to its name. -/
namespace ImageDerivative

theorem Utf8.decode?_ofText (text : String) : decode? (Bytes.ofText text) = some text := by
  have valid : (⟨text.toUTF8.data⟩ : ByteArray).IsValidUTF8 := text.isValidUTF8
  unfold decode? Bytes.ofText String.fromUTF8?
  rw [Array.toArray_toList, dif_pos valid]
  rfl

namespace Manifest

/-- A size that can be written and read back. -/
def IsWordSize (size : Nat × Nat) : Prop := size.1 < 0x100000000 ∧ size.2 < 0x100000000

/-- Every manifest that is made by inserting. -/
structure Sound (manifest : Manifest) : Prop where
  current : manifest.version = currentVersion
  distinct : Dict.Distinct manifest.entries
  /-- The index leads from the key of each entry to its name. -/
  indexed : ∀ {name entry}, manifest.entries.get? name = some entry →
    manifest.index.get? entry.key = some name
  words : ∀ {name entry}, manifest.entries.get? name = some entry → IsWordSize entry.size

theorem get?_insert (manifest : Manifest) (name other : String) (entry : CacheEntry) :
    (manifest.insert name entry).entries.get? other =
      if name = other then some entry
      else if manifest.index.get? entry.key = some other then none
      else manifest.entries.get? other := by
  simp only [insert, Dict.get?_put]
  split
  next => rfl
  next distinct =>
    cases manifest.index.get? entry.key with
    | none => rfl
    | some old =>
      by_cases same : old = name
      · have : old ≠ other := fun h => distinct (same.symm.trans h)
        simp only [if_pos same, Option.some.injEq, if_neg this]
      · simp only [if_neg same, Option.some.injEq, Dict.get?_erase]

theorem get?_index_insert (manifest : Manifest) (name key : String) (entry : CacheEntry) :
    (manifest.insert name entry).index.get? key =
      if entry.key = key then some name else manifest.index.get? key :=
  Dict.get?_put _ _ _ _

theorem lookup?_eq_some_iff {manifest : Manifest} {sourceHash paramsHash name : String}
    {entry : CacheEntry} :
    manifest.lookup? sourceHash paramsHash = some (name, entry) ↔
      manifest.index.get? (contentKey sourceHash paramsHash) = some name ∧
        manifest.entries.get? name = some entry := by
  simp only [lookup?, bind, pure, Option.bind_eq_some_iff]
  constructor
  · rintro ⟨found, led, there, held, same⟩
    cases same
    exact ⟨led, held⟩
  · rintro ⟨led, held⟩
    exact ⟨name, led, entry, held, rfl⟩

theorem findCached?_eq_some_iff {manifest : Manifest} {tree : FileTree} {dir : Path}
    {sourceHash paramsHash name : String} {entry : CacheEntry} :
    manifest.findCached? tree dir sourceHash paramsHash = some (name, entry) ↔
      manifest.lookup? sourceHash paramsHash = some (name, entry) ∧
        tree.exists? (Path.join dir name) = true :=
  Option.filter_eq_some_iff

/-- What has been inserted is looked up under its own name. -/
theorem lookup?_insert (manifest : Manifest) (name : String) (entry : CacheEntry) :
    (manifest.insert name entry).lookup? entry.sourceHash entry.paramsHash = some (name, entry) := by
  apply lookup?_eq_some_iff.mpr
  constructor
  · rw [get?_index_insert]
    exact if_pos rfl
  · rw [get?_insert]
    exact if_pos rfl

namespace Sound

theorem empty : Sound empty :=
  ⟨rfl, List.nodup_nil, (nomatch ·), (nomatch ·)⟩

theorem insert {manifest : Manifest} (sound : Sound manifest) (name : String) {entry : CacheEntry}
    (word : IsWordSize entry.size) : Sound (manifest.insert name entry) where
  current := sound.current
  distinct := by
    unfold Manifest.insert
    simp only
    refine Dict.Distinct.put ?_ _ _
    split
    · split
      · exact sound.distinct
      · exact sound.distinct.erase _
    · exact sound.distinct
  indexed := by
    intro other found held
    rw [get?_insert] at held
    rw [get?_index_insert]
    split at held
    next same => cases held; rw [if_pos rfl, same]
    next distinct =>
      split at held
      next => contradiction
      next kept =>
        have before := sound.indexed held
        by_cases same : entry.key = found.key
        · exact absurd (same ▸ before) kept
        · rw [if_neg same, before]
  words := by
    intro other found held
    rw [get?_insert] at held
    split at held
    next => cases held; exact word
    next =>
      split at held
      next => contradiction
      next => exact sound.words held

/-- The keys of the entries tell them apart. -/
theorem get?_indexOf {manifest : Manifest} (sound : Sound manifest) {key name : String} :
    (indexOf manifest.entries).get? key = some name ↔
      ∃ entry, manifest.entries.get? name = some entry ∧ entry.key = key := by
  have listed : ∀ {key name : String},
      (indexOf manifest.entries).get? key = some name →
        ∃ entry, manifest.entries.get? name = some entry ∧ entry.key = key := by
    intro key name found
    rw [indexOf, Dict.get?_ofPairs, Option.map_eq_some_iff] at found
    obtain ⟨pair, found, named⟩ := found
    have member := List.mem_of_find?_eq_some found
    have keyed := List.find?_some found
    rw [List.mem_reverse, List.mem_map] at member
    obtain ⟨⟨held, entry⟩, member, rfl⟩ := member
    cases named
    exact ⟨entry, sound.distinct.get?_eq member, by simpa using keyed⟩
  refine ⟨listed, ?_⟩
  rintro ⟨entry, held, rfl⟩
  have some : ((indexOf manifest.entries).get? entry.key).isSome := by
    rw [indexOf, Dict.get?_ofPairs, Option.isSome_map, List.find?_isSome]
    exact ⟨(entry.key, name), by
      rw [List.mem_reverse, List.mem_map]
      exact ⟨(name, entry), Dict.mem_of_get? held, rfl⟩, by simp⟩
  obtain ⟨other, found⟩ := Option.isSome_iff_exists.mp some
  obtain ⟨twin, there, same⟩ := listed found
  have led := sound.indexed there
  rw [same, sound.indexed held] at led
  rw [found, ← led]

end Sound

/-- The manifest with its index made anew, as loading makes it. -/
def reindexed (manifest : Manifest) : Manifest :=
  { manifest with index := indexOf manifest.entries }

theorem Sound.reindexed {manifest : Manifest} (sound : Sound manifest) : Sound manifest.reindexed where
  current := sound.current
  distinct := sound.distinct
  indexed := fun held => sound.get?_indexOf.mpr ⟨_, held, rfl⟩
  words := sound.words

theorem entryOfJson?_entryToJson {entry : CacheEntry} (word : IsWordSize entry.size) :
    entryOfJson? (entryToJson entry) = some entry := by
  have fields : recordFields? ["source_hash", "params_hash", "width", "height"]
      (entryToJson entry) = some [.text entry.sourceHash, .text entry.paramsHash,
        .natural entry.size.1, .natural entry.size.2] := rfl
  simp only [entryOfJson?, fields, bind, Option.bind_some, text?, JsonValue.text, word?,
    if_pos word.1, if_pos word.2, pure]

theorem mapM_eq_some {α β : Type} {f : α → Option β} {g : β → α} {items : List β}
    (back : ∀ item ∈ items, f (g item) = some item) : (items.map g).mapM f = some items := by
  induction items with
  | nil => rfl
  | cons item rest ih =>
    rw [List.map_cons, List.mapM_cons, back item List.mem_cons_self,
      ih fun other member => back other (List.mem_cons_of_mem _ member)]
    rfl

theorem entriesOfJson?_ofFields {entries : Dict CacheEntry} (distinct : Dict.Distinct entries)
    (words : ∀ pair ∈ entries, IsWordSize pair.2.size) :
    entriesOfJson? (.ofFields (entries.map fun pair => (pair.1, entryToJson pair.2))) =
      some entries := by
  rw [JsonValue.ofFields, List.map_map]
  simp only [entriesOfJson?]
  rw [mapM_eq_some]
  · simp only [bind, Option.bind_some, pure, Dict.ofPairs_eq distinct]
  · intro pair member
    simp only [Function.comp_def, entryOfJson?_entryToJson (words pair member), bind,
      Option.bind_some, pure]

theorem ofJson?_toJson {manifest : Manifest} (sound : Sound manifest) :
    ofJson? manifest.toJson = some manifest.reindexed := by
  have fields : recordFields? ["version", "entries"] manifest.toJson =
      some [.natural manifest.version,
        .ofFields (manifest.entries.map fun pair => (pair.1, entryToJson pair.2))] := rfl
  have words : ∀ pair ∈ manifest.entries, IsWordSize pair.2.size := fun pair member =>
    sound.words (sound.distinct.get?_eq member)
  have small : manifest.version < 0x100000000 := by rw [sound.current]; decide
  simp only [ofJson?, fields, bind, Option.bind_some, entriesOfJson?_ofFields sound.distinct words,
    word?, if_pos small, pure, reindexed]

theorem readable_entryToJson (depth : Nat) (entry : CacheEntry) :
    JsonReader.Readable (depth + 1) (entryToJson entry) := by
  refine JsonReader.readable_ofFields fun field member => ?_
  simp only [List.mem_cons, List.not_mem_nil, or_false] at member
  rcases member with rfl | rfl | rfl | rfl
  · exact JsonReader.readable_text _ _
  · exact JsonReader.readable_text _ _
  · exact JsonReader.readable_natural _ _
  · exact JsonReader.readable_natural _ _

theorem readable_toJson (manifest : Manifest) :
    JsonReader.Readable JsonReader.maxDepth manifest.toJson := by
  refine JsonReader.readable_ofFields fun field member => ?_
  simp only [List.mem_cons, List.not_mem_nil, or_false] at member
  rcases member with rfl | rfl
  · exact JsonReader.readable_natural _ _
  · refine JsonReader.readable_ofFields fun field member => ?_
    obtain ⟨pair, _, rfl⟩ := List.mem_map.mp member
    exact readable_entryToJson _ pair.2

/-- What is written of a manifest is loaded with its index made anew. -/
theorem Sound.ofBytes?_toJson {manifest : Manifest} (sound : Sound manifest) :
    ofBytes? (Bytes.ofText manifest.toJson.pretty) = some manifest.reindexed := by
  have current : manifest.reindexed.version = currentVersion := sound.current
  simp only [ofBytes?, Utf8.decode?_ofText, JsonReader.parse?_pretty (readable_toJson manifest),
    ofJson?_toJson sound, bind, Option.bind_some, if_pos current, pure]

end Manifest

end ImageDerivative
