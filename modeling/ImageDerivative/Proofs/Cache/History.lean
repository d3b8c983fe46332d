import Mathlib
import ImageDerivative.Cache.Derivatives
import ImageDerivative.Proofs.Cache.ManifestFile
import ImageDerivative.Proofs.Files.Effects

/-! Histories of calls on one cache directory through any number of open caches. What the
directory and the manifests hold is compared with the list of all files that stores have
put there. -/
namespace ImageDerivative.Cache

/-- A file that a store has put into the directory. The store is complete if it also
wrote the manifest. -/
structure Deposit where
  name : String
  entry : CacheEntry
  content : Bytes
  complete : Bool

/-- Where the name of a stored file leads from the place of the directory. -/
def placeOf (place : Place) (name : String) : Place := FileTree.target place (Path.pieces name)

def latest? (deposits : List Deposit) (p : Deposit → Prop) [DecidablePred p] : Option Deposit :=
  deposits.reverse.find? p

theorem latest?_append (deposits : List Deposit) (p : Deposit → Prop) [DecidablePred p]
    (deposit : Deposit) :
    latest? (deposits ++ [deposit]) p = if p deposit then some deposit else latest? deposits p := by
  rw [latest?, List.reverse_append, List.reverse_singleton, List.singleton_append, List.find?_cons]
  by_cases holds : p deposit <;> simp [holds, latest?]

theorem mem_of_latest? {deposits : List Deposit} {p : Deposit → Prop} [DecidablePred p]
    {deposit : Deposit} (found : latest? deposits p = some deposit) :
    deposit ∈ deposits ∧ p deposit :=
  ⟨List.mem_reverse.mp (List.mem_of_find?_eq_some found), by simpa using List.find?_some found⟩

theorem exists_latest? {deposits : List Deposit} {p : Deposit → Prop} [DecidablePred p]
    {deposit : Deposit} (member : deposit ∈ deposits) (holds : p deposit) :
    ∃ last, latest? deposits p = some last := by
  rw [← Option.isSome_iff_exists, latest?, List.find?_isSome]
  exact ⟨deposit, List.mem_reverse.mpr member, by simpa using holds⟩

/-- What a manifest says of a name is said of the latest deposit under it, and a key leads
to the name of the latest deposit with that key. -/
structure Tells (manifest : Manifest) (known : List Deposit) : Prop where
  sound : manifest.Sound
  named : ∀ {name entry}, manifest.entries.get? name = some entry →
    ∃ deposit, latest? known (·.name = name) = some deposit ∧ deposit.entry = entry
  keyed : ∀ {key name}, manifest.index.get? key = some name →
    ∃ deposit, latest? known (·.entry.key = key) = some deposit ∧ deposit.name = name

namespace Tells

theorem empty (known : List Deposit) : Tells .empty known :=
  ⟨.empty, (nomatch ·), (nomatch ·)⟩

theorem insert {manifest : Manifest} {known : List Deposit} (tells : Tells manifest known)
    (deposit : Deposit) (word : Manifest.IsWordSize deposit.entry.size) :
    Tells (manifest.insert deposit.name deposit.entry) (known ++ [deposit]) where
  sound := tells.sound.insert _ word
  named := by
    intro name entry held
    rw [Manifest.get?_insert] at held
    rw [latest?_append]
    split at held
    next same =>
      cases held
      exact ⟨deposit, if_pos same, rfl⟩
    next other =>
      rw [if_neg other]
      split at held
      next => contradiction
      next => exact tells.named held
  keyed := by
    intro key name led
    rw [Manifest.get?_index_insert] at led
    rw [latest?_append]
    split at led
    next same =>
      cases led
      exact ⟨deposit, if_pos same, rfl⟩
    next other =>
      rw [if_neg other]
      exact tells.keyed led

theorem reindexed {manifest : Manifest} {known : List Deposit} (tells : Tells manifest known) :
    Tells manifest.reindexed known where
  sound := tells.sound.reindexed
  named := tells.named
  keyed := by
    intro key name led
    obtain ⟨entry, held, rfl⟩ := tells.sound.get?_indexOf.mp led
    exact tells.keyed (tells.sound.indexed held)

/-- A manifest is written and loaded without a loss. -/
theorem ofBytes? {manifest : Manifest} {known : List Deposit} (tells : Tells manifest known) :
    ∃ loaded, Manifest.ofBytes? (Bytes.ofText manifest.toJson.pretty) = some loaded ∧
      Tells loaded known :=
  ⟨_, tells.sound.ofBytes?_toJson, tells.reindexed⟩

end Tells

/-- An open cache and the deposits it knows of: those that were written when it was
opened, and its own since. -/
structure Handle where
  cache : Cache
  known : List Deposit

structure History where
  files : FileTree
  handles : List Handle := []
  deposits : List Deposit := []
  /-- The deposits that were known to the cache that last wrote the manifest. -/
  written : List Deposit := []

/-- A call on a cache, which is told by its number, or a change that others make. -/
inductive Call where
  | elsewhere (files : FileTree)
  | open (dir : Path)
  | store (number : Nat) (sourceHash paramsHash : String) (output : Path) (size : UInt32 × UInt32)
  | restore (number : Nat) (sourceHash paramsHash : String) (output : Path)

/-- The session that a task leaves, whether it fails or not. -/
def after {α : Type} (task : Task α) (session : Session) : Session :=
  match task session with
  | .ok _ session => session
  | .error _ session => session

/-- The deposit that a store makes, if it can copy the file. -/
def deposit? (files : FileTree) (cache : Cache) (sourceHash paramsHash : String) (output : Path)
    (size : Nat × Nat) : Option Deposit :=
  let name := storedName sourceHash paramsHash (Path.lowerExtension output)
  match files.node? output, Files.copy output (Path.join cache.dir name) files with
  | some (.file content), .ok _ _ => some {
      name, content
      entry := ⟨sourceHash, paramsHash, size⟩
      complete := match store sourceHash paramsHash output size ⟨files, cache⟩ with
        | .ok _ _ => true
        | .error _ _ => false }
  | _, _ => none

namespace History

def afterOpen (history : History) (dir : Path) : History :=
  match Cache.open dir history.files with
  | .ok cache files =>
    { history with files, handles := history.handles ++ [⟨cache, history.written⟩] }
  | .error _ files => { history with files }

def afterStore (history : History) (number : Nat) (sourceHash paramsHash : String) (output : Path)
    (size : Nat × Nat) : History :=
  match history.handles[number]? with
  | none => history
  | some handle =>
    let left := after (store sourceHash paramsHash output size) ⟨history.files, handle.cache⟩
    match deposit? history.files handle.cache sourceHash paramsHash output size with
    | none => { history with
        files := left.files
        handles := history.handles.set number { handle with cache := left.cache } }
    | some deposit =>
      let known := handle.known ++ [deposit]
      { files := left.files
        handles := history.handles.set number ⟨left.cache, known⟩
        deposits := history.deposits ++ [deposit]
        written := if deposit.complete then known else history.written }

def afterRestore (history : History) (number : Nat) (sourceHash paramsHash : String)
    (output : Path) : History :=
  match history.handles[number]? with
  | none => history
  | some handle =>
    let left := after (restore sourceHash paramsHash output) ⟨history.files, handle.cache⟩
    { history with
      files := left.files
      handles := history.handles.set number { handle with cache := left.cache } }

def next (history : History) : Call → History
  | .elsewhere files => { history with files }
  | .open dir => history.afterOpen dir
  | .store number sourceHash paramsHash output size =>
    history.afterStore number sourceHash paramsHash output (size.1.toNat, size.2.toNat)
  | .restore number sourceHash paramsHash output =>
    history.afterRestore number sourceHash paramsHash output

end History

/-- A path leads to a place inside the directory. -/
def Inside (place here : Place) (path : Path) : Prop :=
  ∃ inner ≠ [], FileTree.target here (Path.pieces path) = place ++ inner

/-- Calls on the directory at `place`. Others change nothing inside it, and outputs are
outside. No file is stored under a name that leads to the manifest. -/
def Allowed (place : Place) (history : History) : Call → Prop
  | .elsewhere files => files.here = history.files.here ∧
      ∀ inner ≠ [], files.get? (place ++ inner) = history.files.get? (place ++ inner)
  | .open dir => FileTree.directory history.files.here dir = place
  | .store _ sourceHash paramsHash output _ =>
    placeOf place (storedName sourceHash paramsHash (Path.lowerExtension output)) ≠
        place ++ [Manifest.fileName] ∧
      ¬ Inside place history.files.here output
  | .restore _ _ _ output => ¬ Inside place history.files.here output

/-- The histories of a directory that has no manifest when they begin. -/
inductive Reachable (place : Place) : History → Prop where
  | start {files : FileTree}
      (fresh : ∀ content, files.get? (place ++ [Manifest.fileName]) ≠ some (.file content)) :
      Reachable place { files }
  | next {history : History} {call : Call} (reached : Reachable place history)
      (allowed : Allowed place history call) : Reachable place (history.next call)

end ImageDerivative.Cache
