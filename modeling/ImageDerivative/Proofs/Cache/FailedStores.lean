import Mathlib
import ImageDerivative.Proofs.Cache.Serving

/-! What a store that fails leaves of an open cache. A copy that fails changes nothing. Where
the manifest cannot be written the cache has recorded the deposit already; it then answers as
before exactly if it said the same before. -/
namespace ImageDerivative

namespace Manifest

/-- The manifests hold the same entries, and find the same for all hashes in one tree. -/
structure Agrees (files : FileTree) (dir : Path) (a b : Manifest) : Prop where
  entries : ∀ name, a.entries.get? name = b.entries.get? name
  answers : ∀ sourceHash paramsHash,
    a.findCached? files dir sourceHash paramsHash = b.findCached? files dir sourceHash paramsHash

/-- Inserting what a manifest says already changes no answer. -/
theorem insert_agrees {manifest : Manifest} {name : String} {entry : CacheEntry}
    (said : manifest.lookup? entry.sourceHash entry.paramsHash = some (name, entry))
    (files : FileTree) (dir : Path) : Agrees files dir (manifest.insert name entry) manifest := by
  obtain ⟨led, held⟩ := lookup?_eq_some_iff.mp said
  have entries : ∀ other,
      (manifest.insert name entry).entries.get? other = manifest.entries.get? other := by
    intro other
    rw [get?_insert]
    by_cases here : name = other
    · rw [if_pos here, ← here, held]
    · have kept : manifest.index.get? entry.key ≠ some other := by
        intro same
        exact here (Option.some.inj (led.symm.trans same))
      rw [if_neg here, if_neg kept]
  have index : ∀ key, (manifest.insert name entry).index.get? key = manifest.index.get? key := by
    intro key
    rw [get?_index_insert]
    split
    next same => rw [← same]; exact led.symm
    next => rfl
  refine ⟨entries, ?_⟩
  intro sourceHash paramsHash
  simp only [findCached?, lookup?, index, entries]

/-- Where the file of a name is there, recording an entry under it is seen exactly if the
manifest did not lead from its hashes to this name with this entry before. -/
theorem insert_agrees_iff {manifest : Manifest} {files : FileTree} {dir : Path} {name : String}
    {entry : CacheEntry} (stored : files.exists? (Path.join dir name) = true) :
    Agrees files dir (manifest.insert name entry) manifest ↔
      manifest.lookup? entry.sourceHash entry.paramsHash = some (name, entry) := by
  constructor
  · intro agrees
    have found : (manifest.insert name entry).findCached? files dir entry.sourceHash
        entry.paramsHash = some (name, entry) :=
      findCached?_eq_some_iff.mpr ⟨lookup?_insert manifest name entry, stored⟩
    rw [agrees.answers] at found
    exact (findCached?_eq_some_iff.mp found).1
  · intro said
    exact insert_agrees said files dir

end Manifest

namespace Cache

section Failing

variable {sourceHash paramsHash name : String} {output : Path} {size : Nat × Nat}
  {files : FileTree} {cache : Cache} {failure : IoFailure} {left : Session}

/-- A store fails in its copy, and then all is as it was, or in writing the manifest, and
then the copy and the record of it stay. -/
theorem store_error (named : storedName sourceHash paramsHash (Path.lowerExtension output) = name)
    (ran : store sourceHash paramsHash output size ⟨files, cache⟩ = .error failure left) :
    Files.copy output (Path.join cache.dir name) files = .error failure files ∧
        left = ⟨files, cache⟩ ∨
      Files.copy output (Path.join cache.dir name) files = .ok () left.files ∧
        left.cache = { cache with
          manifest := cache.manifest.insert name ⟨sourceHash, paramsHash, size⟩ } := by
  rw [store_eq named rfl] at ran
  cases copying : Files.copy output (Path.join cache.dir name) files with
  | error refusal between =>
    rw [copying] at ran
    cases ran
    cases Files.copy_error copying
    exact .inl ⟨rfl, rfl⟩
  | ok _ copied =>
    simp only [copying] at ran
    split at ran
    next saving =>
      cases ran
      cases Files.write_error saving
      exact .inr ⟨rfl, rfl⟩
    next => cases ran

theorem exists?_of_copy {source goal : Path} {copied : FileTree}
    (ran : Files.copy source goal files = .ok () copied) : copied.exists? goal = true := by
  obtain ⟨place, there, content, located, found, reached, free, rfl⟩ := Files.copy_ok ran
  rw [FileTree.exists?, FileTree.node?_put _ reached free]
  rfl

/-- A cache whose store has failed holds the entries that it held, and finds what it found,
exactly if the copy failed or the manifest said of the two hashes what the store recorded. -/
theorem store_error_agrees_iff
    (named : storedName sourceHash paramsHash (Path.lowerExtension output) = name)
    (ran : store sourceHash paramsHash output size ⟨files, cache⟩ = .error failure left) :
    (left.cache = cache ∨ left.cache = { cache with
      manifest := cache.manifest.insert name ⟨sourceHash, paramsHash, size⟩ }) ∧
    (Manifest.Agrees left.files cache.dir left.cache.manifest cache.manifest ↔
      Files.copy output (Path.join cache.dir name) files = .error failure files ∨
        cache.manifest.lookup? sourceHash paramsHash =
          some (name, ⟨sourceHash, paramsHash, size⟩)) := by
  rcases store_error named ran with ⟨refused, rfl⟩ | ⟨copied, recorded⟩
  · refine ⟨.inl rfl, ?_⟩
    constructor
    · intro _
      exact .inl refused
    · intro _
      exact ⟨fun _ => rfl, fun _ _ => rfl⟩
  · refine ⟨.inr recorded, ?_⟩
    rw [recorded, copied]
    apply (Manifest.insert_agrees_iff (exists?_of_copy copied)).trans
    constructor
    · intro said
      exact .inr said
    · intro either
      rcases either with refused | said
      · cases refused
      · exact said

end Failing

namespace Blocked

open Clash (scene locate_out locate_inside)

def files : FileTree := scene [1] [(["cache", Manifest.fileName], .directory)]

def cache (manifest : Manifest) : Cache := { dir := "cache", manifest }

def name : String := "s-p"

def entry : CacheEntry := ⟨"s", "p", (1, 1)⟩

def older : Manifest := Manifest.empty.insert "s-p.jpg" ⟨"s", "p", (2, 2)⟩

/-- What the copy leaves, which is also what the store leaves. -/
def copied : FileTree := files.put ["cache", name] (.file [1])

theorem storedName_out : storedName "s" "p" (Path.lowerExtension "out") = name := by cbv

theorem locate_stored : files.locate (Path.join "cache" name) = .ok ["cache", name] :=
  locate_inside _ _ (by decide) (by decide)

theorem copies : Files.copy "out" (Path.join "cache" name) files = .ok () copied :=
  Files.copy_apart (locate_out _ _) rfl locate_stored (by decide) (by decide)

theorem save_refused (manifest : Manifest) :
    manifest.save "cache" copied = .error .isADirectory copied := by
  have free : files.get? ["cache", name] ≠ some .directory := by decide
  have reached : files.locate (Manifest.path "cache") = .ok ["cache", Manifest.fileName] :=
    locate_inside _ _ (by decide) (by decide)
  have opens := FileTree.Opens.put_file [1] free
  rw [Manifest.save, Files.write_eq, copied, opens.locate (FileTree.here_put _ _ _) reached]
  rfl

theorem store_refused (manifest : Manifest) :
    store "s" "p" "out" (1, 1) ⟨files, cache manifest⟩ =
      .error .isADirectory ⟨copied, cache (manifest.insert name entry)⟩ := by
  rw [store_eq storedName_out rfl]
  simp only [cache, copies, save_refused]
  rfl

end Blocked

/-- The entry of an older file is dropped, and that of the new one is there instead. -/
theorem store_error_agrees_iff_replacing :
    storedName "s" "p" (Path.lowerExtension "out") = Blocked.name ∧
    store "s" "p" "out" (1, 1) ⟨Blocked.files, Blocked.cache Blocked.older⟩ =
      .error .isADirectory ⟨Blocked.copied,
        Blocked.cache (Blocked.older.insert Blocked.name Blocked.entry)⟩ ∧
    (Manifest.Agrees Blocked.copied "cache" (Blocked.older.insert Blocked.name Blocked.entry)
        Blocked.older ↔
      Files.copy "out" (Path.join "cache" Blocked.name) Blocked.files =
          .error .isADirectory Blocked.files ∨
        Blocked.older.lookup? "s" "p" = some (Blocked.name, Blocked.entry)) ∧
    Blocked.older.lookup? "s" "p" = some ("s-p.jpg", ⟨"s", "p", (2, 2)⟩) :=
  ⟨Blocked.storedName_out, Blocked.store_refused _,
    (store_error_agrees_iff Blocked.storedName_out (Blocked.store_refused Blocked.older)).2,
    Manifest.lookup?_insert _ _ ⟨"s", "p", (2, 2)⟩⟩

/-- The store fails, and the empty cache serves from now on what it could not store. -/
theorem store_error_records :
    ∃ left, store "s" "p" "out" (1, 1) ⟨Blocked.files, Blocked.cache .empty⟩ =
        .error .isADirectory left ∧
      Manifest.empty.entries.get? Blocked.name = none ∧
      left.cache.manifest.entries.get? Blocked.name = some Blocked.entry ∧
      Manifest.empty.findCached? left.files "cache" "s" "p" = none ∧
      left.cache.manifest.findCached? left.files "cache" "s" "p" =
        some (Blocked.name, Blocked.entry) ∧
      ¬ Manifest.Agrees left.files "cache" left.cache.manifest .empty := by
  have stored := exists?_of_copy Blocked.copies
  refine ⟨_, Blocked.store_refused _, rfl, rfl, rfl, ?_, ?_⟩
  · exact Manifest.findCached?_eq_some_iff.mpr ⟨Manifest.lookup?_insert .empty _ _, stored⟩
  · intro agrees
    exact absurd ((Manifest.insert_agrees_iff stored).mp agrees) (by decide)

end Cache

end ImageDerivative
