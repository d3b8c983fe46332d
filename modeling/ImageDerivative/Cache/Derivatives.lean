import ImageDerivative.Cache.Manifest
import ImageDerivative.Sha256

/-! A directory of derivatives that have been made before. A derivative is found by
the hash of its source and the hash of its parameters, and is served by copying
the stored file. -/
namespace ImageDerivative

/-- How often a derivative was served, and how often not. -/
structure CacheStats where
  hits : Nat := 0
  misses : Nat := 0
  deriving DecidableEq, Repr

namespace CacheStats

def total (stats : CacheStats) : Nat := stats.hits + stats.misses

def summary (stats : CacheStats) : String :=
  if stats.hits > 0 then
    s!"{stats.hits} cached, {stats.misses} rendered ({stats.total} total)"
  else s!"{stats.misses} rendered"

end CacheStats

/-- How many bytes of a hash a stored name begins with. -/
def namePrefixLength : Nat := 16

/-- The first bytes of a hash; all of it where they do not end a character. -/
def shortHash (hash : String) : String :=
  let bytes := Bytes.ofText hash
  if bytes.length < namePrefixLength then hash
  else (Utf8.decode? (bytes.take namePrefixLength)).getD hash

/-- The name a derivative is stored under. -/
def storedName (sourceHash paramsHash extension : String) : String :=
  let stem := shortHash sourceHash ++ "-" ++ shortHash paramsHash
  if extension.isEmpty then stem else stem ++ "." ++ extension

def hashFile (path : Path) : Files String := return (Sha256.digest (← Files.read path)).toHex

structure Cache where
  dir : Path
  manifest : Manifest
  stats : CacheStats := {}
  deriving Repr

structure CacheHit where
  stored : Path
  size : Nat × Nat
  deriving DecidableEq, Repr

namespace Cache

/-- Makes the directory where it is missing and loads its manifest. -/
def «open» (dir : Path) : Files Cache := do
  Files.makePath dir
  return { dir, manifest := Manifest.load (← get) dir }

/-- An open cache and the files it works on. What an operation has done to either
before it fails stays done. -/
structure Session where
  files : FileTree
  cache : Cache

abbrev Task := EStateM IoFailure Session

instance : MonadLift Files Task where
  monadLift action := fun session =>
    match action session.files with
    | .ok a files => .ok a { session with files }
    | .error failure files => .error failure { session with files }

def Session.update (change : Cache → Cache) : Task Unit :=
  modify fun session => { session with cache := change session.cache }

def hit (cache : Cache) : Cache := { cache with stats.hits := cache.stats.hits + 1 }

def miss (cache : Cache) : Cache := { cache with stats.misses := cache.stats.misses + 1 }

def restore (sourceHash paramsHash : String) (output : Path) : Task (Option CacheHit) := do
  let session ← get
  let cache := session.cache
  match cache.manifest.findCached? session.files cache.dir sourceHash paramsHash with
  | none =>
    Session.update miss
    return none
  | some (name, entry) =>
    let stored := Path.join cache.dir name
    unless Path.same stored output do
      Files.copy stored output
    Session.update hit
    return some { stored, size := entry.size }

def store (sourceHash paramsHash : String) (output : Path) (size : Nat × Nat) : Task Path := do
  let cache := (← get).cache
  let name := storedName sourceHash paramsHash (Path.lowerExtension output)
  let stored := Path.join cache.dir name
  Files.copy output stored
  let manifest := cache.manifest.insert name ⟨sourceHash, paramsHash, size⟩
  Session.update fun cache => { cache with manifest }
  Manifest.save manifest cache.dir
  return stored

end Cache

end ImageDerivative
