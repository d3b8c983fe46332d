import Mathlib
import ImageDerivative.Proofs.Cache.Serving

/-! Manifests that come about by inserting alone. A name may be taken over by other content,
and content may move to another name; either can leave the index with keys of entries that
are gone. It never loses the key of an entry that is there, and that is enough for a manifest
to be written in any order of its entries and loaded again. -/
namespace ImageDerivative

namespace Dict.Distinct

variable {α : Type} {dict order : Dict α}

theorem perm (distinct : Distinct dict) (perm : order.Perm dict) : Distinct order :=
  (perm.map Prod.fst).nodup_iff.mpr distinct

/-- What a key is bound to does not depend on the order of the entries. -/
theorem get?_perm (distinct : Distinct dict) (perm : order.Perm dict) (key : String) :
    get? order key = get? dict key := by
  apply Option.ext
  intro value
  constructor
  · intro found
    exact distinct.get?_eq (perm.mem_iff.mp (mem_of_get? found))
  · intro found
    exact (distinct.perm perm).get?_eq (perm.mem_iff.mpr (mem_of_get? found))

end Dict.Distinct

namespace Manifest

/-- A name and what is recorded under it, with a size of two words. -/
structure Insertion where
  name : String
  sourceHash : String
  paramsHash : String
  size : UInt32 × UInt32

def Insertion.entry (insertion : Insertion) : CacheEntry :=
  ⟨insertion.sourceHash, insertion.paramsHash, insertion.size.1.toNat, insertion.size.2.toNat⟩

def ofInsertions (insertions : List Insertion) : Manifest :=
  insertions.foldl (fun manifest insertion => manifest.insert insertion.name insertion.entry) empty

def reordered (manifest : Manifest) (order : Dict CacheEntry) : Manifest :=
  { manifest with entries := order }

namespace Sound

variable {manifest : Manifest} {order : Dict CacheEntry}

theorem foldl_insert (sound : Sound manifest) (insertions : List Insertion) :
    Sound (insertions.foldl
      (fun manifest insertion => manifest.insert insertion.name insertion.entry) manifest) := by
  induction insertions generalizing manifest with
  | nil => exact sound
  | cons insertion rest ih =>
    apply ih
    exact sound.insert insertion.name ⟨insertion.size.1.toNat_lt, insertion.size.2.toNat_lt⟩

theorem ofInsertions (insertions : List Insertion) : Sound (ofInsertions insertions) :=
  empty.foldl_insert insertions

/-- The index tells the names of two entries with one key to be the same. -/
theorem name_eq (sound : Sound manifest) {name other : String} {entry twin : CacheEntry}
    (held : manifest.entries.get? name = some entry)
    (there : manifest.entries.get? other = some twin) (same : entry.key = twin.key) :
    name = other := by
  have led := sound.indexed held
  rw [same, sound.indexed there] at led
  exact (Option.some.inj led).symm

theorem reordered (sound : Sound manifest) (perm : order.Perm manifest.entries) :
    Sound (manifest.reordered order) where
  current := sound.current
  distinct := sound.distinct.perm perm
  indexed := by
    intro name entry held
    apply sound.indexed
    rwa [← sound.distinct.get?_perm perm]
  words := by
    intro name entry held
    have kept : manifest.entries.get? name = some entry := by
      rwa [← sound.distinct.get?_perm perm]
    exact sound.words kept

theorem get?_indexOf_perm (sound : Sound manifest) (perm : order.Perm manifest.entries)
    (key : String) : (indexOf order).get? key = (indexOf manifest.entries).get? key := by
  apply Option.ext
  intro name
  have anew : (indexOf order).get? key = some name ↔
      ∃ entry, order.get? name = some entry ∧ entry.key = key :=
    (sound.reordered perm).get?_indexOf
  rw [anew, sound.get?_indexOf, sound.distinct.get?_perm perm]

/-- Where a manifest has been written, it is loaded with its index made anew. -/
theorem load_saved (sound : Sound manifest) {dir : Path} {files left : FileTree}
    (saved : manifest.save dir files = .ok () left) : load left dir = manifest.reindexed := by
  have read : Files.read (Manifest.path dir) left =
      .ok (Bytes.ofText manifest.toJson.pretty) left :=
    Files.read_ok_iff.mpr ⟨Files.node?_write saved, rfl⟩
  simp only [load, read, sound.ofBytes?_toJson, Option.getD_some]

/-- A manifest whose index is made anew finds each of its entries. -/
theorem findCached?_reindexed (sound : Sound manifest) {tree : FileTree} {dir : Path}
    {name : String} {entry : CacheEntry} (held : manifest.entries.get? name = some entry)
    (stored : tree.exists? (Path.join dir name) = true) :
    manifest.reindexed.findCached? tree dir entry.sourceHash entry.paramsHash =
      some (name, entry) := by
  apply findCached?_eq_some_iff.mpr
  constructor
  · exact lookup?_eq_some_iff.mpr ⟨sound.reindexed.indexed held, held⟩
  · exact stored

end Sound

/-- After any insertions the entries have keys of their own, from which the index leads to
their names. So the index that is made on loading is the same for every order of the entries,
and what was written in any order is loaded with every entry in its place and to be found. -/
theorem ofInsertions_findable (insertions : List Insertion) :
    let manifest := ofInsertions insertions
    (∀ name other entry twin, manifest.entries.get? name = some entry →
      manifest.entries.get? other = some twin → entry.key = twin.key → name = other) ∧
    (∀ name entry, manifest.entries.get? name = some entry →
      manifest.index.get? entry.key = some name) ∧
    ∀ order, order.Perm manifest.entries →
      (∀ key, (indexOf order).get? key = (indexOf manifest.entries).get? key) ∧
      ∀ dir files left, (manifest.reordered order).save dir files = .ok () left →
        (∀ key, (load left dir).index.get? key = (indexOf manifest.entries).get? key) ∧
        ∀ name, (load left dir).entries.get? name = manifest.entries.get? name ∧
          ∀ tree entry, manifest.entries.get? name = some entry →
            tree.exists? (Path.join dir name) = true →
            (load left dir).findCached? tree dir entry.sourceHash entry.paramsHash =
              some (name, entry) := by
  intro manifest
  have sound : Sound manifest := Sound.ofInsertions insertions
  refine ⟨?_, ?_, ?_⟩
  · intro name other entry twin held there same
    exact sound.name_eq held there same
  · intro name entry held
    exact sound.indexed held
  · intro order perm
    refine ⟨sound.get?_indexOf_perm perm, ?_⟩
    intro dir files left saved
    have ordered := sound.reordered perm
    have entries : ∀ name, (manifest.reordered order).entries.get? name =
        manifest.entries.get? name := sound.distinct.get?_perm perm
    rw [ordered.load_saved saved]
    refine ⟨sound.get?_indexOf_perm perm, ?_⟩
    intro name
    refine ⟨entries name, ?_⟩
    intro tree entry held stored
    exact ordered.findCached?_reindexed ((entries name).trans held) stored

namespace TakenOver

open Cache.Clash (scene locate_inside)

def insertions : List Insertion :=
  [⟨"one.png", "s", "p", (1, 1)⟩, ⟨"one.png", "t", "p", (2, 2)⟩, ⟨"two.png", "s", "p", (3, 3)⟩,
    ⟨"one.jpg", "t", "q", (4, 4)⟩]

def order : Dict CacheEntry :=
  [("one.jpg", ⟨"t", "q", (4, 4)⟩), ("two.png", ⟨"s", "p", (3, 3)⟩)]

def files : FileTree := scene [] [(["cache", "two.png"], .file [2])]

def saved : FileTree := files.put ["cache", fileName]
  (.file (Bytes.ofText ((ofInsertions insertions).reordered order).toJson.pretty))

theorem locate_manifest : files.locate (Manifest.path "cache") = .ok ["cache", fileName] :=
  locate_inside _ _ (by decide) (by decide)

theorem saves : ((ofInsertions insertions).reordered order).save "cache" files = .ok () saved :=
  Files.write_free _ locate_manifest (by decide)

theorem exists_two : saved.exists? (Path.join "cache" "two.png") = true := by
  have located : files.locate (Path.join "cache" "two.png") = .ok ["cache", "two.png"] :=
    locate_inside _ _ (by decide) (by decide)
  have free : files.get? ["cache", fileName] ≠ some .directory := by decide
  have kept := FileTree.Opens.put_file
    (Bytes.ofText ((ofInsertions insertions).reordered order).toJson.pretty) free
  rw [FileTree.exists?, saved, FileTree.node?_eq (kept.locate (FileTree.here_put _ _ _) located),
    FileTree.get?_put _ (FileTree.ne_nil_of_get? free)]
  rfl

end TakenOver

/-- The index still leads from the key that was taken down to the name, and loading forgets it. -/
theorem ofInsertions_findable_takenOver :
    TakenOver.order.Perm (ofInsertions TakenOver.insertions).entries ∧
    ((ofInsertions TakenOver.insertions).reordered TakenOver.order).save "cache" TakenOver.files =
      .ok () TakenOver.saved ∧
    TakenOver.saved.exists? (Path.join "cache" "two.png") = true ∧
    (ofInsertions TakenOver.insertions).index.get? (contentKey "t" "p") = some "one.png" ∧
    (load TakenOver.saved "cache").index.get? (contentKey "t" "p") = none ∧
    (load TakenOver.saved "cache").findCached? TakenOver.saved "cache" "s" "p" =
      some ("two.png", ⟨"s", "p", (3, 3)⟩) := by
  have perm : TakenOver.order.Perm (ofInsertions TakenOver.insertions).entries := by decide
  have reloaded := ((ofInsertions_findable TakenOver.insertions).2.2 TakenOver.order perm).2
    "cache" TakenOver.files TakenOver.saved TakenOver.saves
  have found := (reloaded.2 "two.png").2 TakenOver.saved ⟨"s", "p", (3, 3)⟩ rfl
    TakenOver.exists_two
  exact ⟨perm, TakenOver.saves, TakenOver.exists_two, rfl, (reloaded.1 _).trans rfl, found⟩

end Manifest

end ImageDerivative
