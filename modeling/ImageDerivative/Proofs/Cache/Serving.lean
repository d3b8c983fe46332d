import Mathlib
import ImageDerivative.Proofs.Cache.Invariant

/-! What a hit serves, compared with what was stored last for its hashes. -/
namespace ImageDerivative.Cache

def lastStore? (deposits : List Deposit) (sourceHash paramsHash : String) : Option Deposit :=
  latest? deposits fun deposit => deposit.complete = true ∧
    deposit.entry.sourceHash = sourceHash ∧ deposit.entry.paramsHash = paramsHash

/-- The size and the file that are served are those of the most recent store for the two
hashes that succeeded. -/
def ServesLast (deposits : List Deposit) (sourceHash paramsHash : String) (size : Nat × Nat)
    (served : Option Node) : Prop :=
  ∃ last, lastStore? deposits sourceHash paramsHash = some last ∧
    size = last.entry.size ∧ served = some (.file last.content)

/-- The way from two hashes to what is served for them: the key leads to a name, the
manifest says the size under that name, and any cache may have stored the file. -/
structure Trail (place : Place) (known deposits : List Deposit) (sourceHash paramsHash : String)
    (keyed shown held : Deposit) : Prop where
  key : latest? known (·.entry.key = contentKey sourceHash paramsHash) = some keyed
  name : latest? known (·.name = keyed.name) = some shown
  file : latest? deposits (placeOf place ·.name = placeOf place keyed.name) = some held

section Hit

variable {place : Place} {history : History} {number : Nat} {handle : Handle}
  {sourceHash paramsHash : String} {output : Path} {hit : CacheHit} {left : Session}

/-- A file inside is served to a place outside as it is. -/
theorem write_of_served {files left : FileTree} {stored : Path} {inner : Place} {content : Bytes}
    (some : stored ≠ "") (below : inner ≠ [])
    (leads : FileTree.target files.here (Path.pieces stored) = place ++ inner)
    (kept : files.get? (place ++ inner) = .some (.file content))
    (outside : ¬ Inside place files.here output)
    (served : Path.same stored output ∨ Files.copy stored output files = .ok () left) :
    Files.write output content files = .ok () left := by
  cases served with
  | inl same =>
    have equal := FileTree.target_eq_of_same files.here some same
    exact absurd ⟨inner, below, equal.symm.trans leads⟩ outside
  | inr copied =>
    obtain ⟨source, goal, copy, located, found, reached, free, put⟩ := Files.copy_ok copied
    obtain rfl : source = place ++ inner := (FileTree.locate_ok located).trans leads
    have apart : place ++ inner ≠ goal := by
      rw [FileTree.locate_ok reached]
      exact fun same => outside ⟨inner, below, same.symm⟩
    cases kept.symm.trans found
    rw [put, if_neg apart]
    exact Files.write_free _ reached free

theorem node?_of_served {files left : FileTree} {stored : Path} {inner : Place} {content : Bytes}
    (some : stored ≠ "") (below : inner ≠ [])
    (leads : FileTree.target files.here (Path.pieces stored) = place ++ inner)
    (kept : files.get? (place ++ inner) = .some (.file content))
    (outside : ¬ Inside place files.here output)
    (served : Path.same stored output ∨ Files.copy stored output files = .ok () left) :
    left.node? output = .some (.file content) :=
  Files.node?_write (write_of_served some below leads kept outside served)

theorem restore_served (reached : Reachable place history)
    (opened : history.handles[number]? = some handle)
    (outside : ¬ Inside place history.files.here output)
    (ran : restore sourceHash paramsHash output ⟨history.files, handle.cache⟩ =
      .ok (some hit) left)
    (inside : Inside place history.files.here hit.stored) :
    ∃ keyed shown held,
      Trail place handle.known history.deposits sourceHash paramsHash keyed shown held ∧
      hit.size = shown.entry.size ∧ left.files.node? output = some (.file held.content) := by
  have valid := reached.valid
  have fits := valid.handles handle (List.mem_of_getElem? opened)
  obtain ⟨name, entry, led, told, rfl, served⟩ := restore_hit ran
  obtain ⟨keyed, byKey, rfl⟩ := fits.tells.keyed led
  obtain ⟨shown, byName, rfl⟩ := fits.tells.named told
  have member : keyed ∈ history.deposits := fits.known (mem_of_latest? byKey).1
  have some := (valid.named keyed member).1
  obtain ⟨held, byPlace⟩ := exists_latest? (p := (placeOf place ·.name = placeOf place keyed.name))
    member rfl
  obtain ⟨inner, below, leads⟩ := inside
  have kept := valid.files below (leads ▸ fits.leads some ▸ byPlace)
  exact ⟨keyed, shown, held, ⟨byKey, byName, byPlace⟩, rfl,
    node?_of_served (Path.join_ne_empty _ some) below leads kept outside served⟩

/-- A hit is right exactly if the trail ends in the size and the content of the last
successful store for the two hashes. Neither hash is compared on the way. -/
theorem restore_servesLast_iff (reached : Reachable place history)
    (opened : history.handles[number]? = some handle)
    (outside : ¬ Inside place history.files.here output)
    (ran : restore sourceHash paramsHash output ⟨history.files, handle.cache⟩ =
      .ok (some hit) left)
    (inside : Inside place history.files.here hit.stored) :
    ∃ keyed shown held,
      Trail place handle.known history.deposits sourceHash paramsHash keyed shown held ∧
      hit.size = shown.entry.size ∧ left.files.node? output = some (.file held.content) ∧
      (ServesLast history.deposits sourceHash paramsHash hit.size (left.files.node? output) ↔
        ∃ last, lastStore? history.deposits sourceHash paramsHash = some last ∧
          shown.entry.size = last.entry.size ∧ held.content = last.content) := by
  obtain ⟨keyed, shown, held, trail, size, node⟩ :=
    restore_served reached opened outside ran inside
  refine ⟨keyed, shown, held, trail, size, node, ?_⟩
  rw [ServesLast, size, node]
  constructor
  · rintro ⟨last, latest, same, served⟩
    exact ⟨last, latest, same, Node.file.inj (Option.some.inj served)⟩
  · rintro ⟨last, latest, same, content⟩
    exact ⟨last, latest, same, by rw [content]⟩

end Hit

namespace Clash

def firstHash : String := "0123456789abcdef0"

def secondHash : String := "0123456789abcdef1"

def commonName : String := "0123456789abcdef-params"

theorem storedName_firstHash :
    storedName firstHash "params" (Path.lowerExtension "out") = commonName := by cbv

theorem storedName_secondHash :
    storedName secondHash "params" (Path.lowerExtension "out") = commonName := by cbv

theorem whole_commonName : '/' ∉ commonName.toList := by decide

theorem named_commonName : commonName ≠ "" ∧ commonName ≠ "." ∧ commonName ≠ ".." := by decide

theorem placeOf_commonName : placeOf ["cache"] commonName = ["cache", commonName] :=
  FileTree.target_of_not_mem _ whole_commonName named_commonName

theorem pieces_out : Path.pieces "out" = ["out"] := Path.pieces_of_not_mem (by decide)

theorem outside_out : ¬ Inside ["cache"] [] "out" := by
  rintro ⟨inner, _, same⟩
  rw [pieces_out] at same
  exact absurd (List.cons.inj same).1 (by decide)

theorem folder_cache : Path.folder "cache" = ["cache"] := by cbv

def scene (output : Bytes) (inside : List (Place × Node)) : FileTree :=
  { nodes := (["out"], .file output) :: (["cache"], .directory) :: inside }

def filled (stored : Bytes) (manifest : Manifest) : List (Place × Node) :=
  [(["cache", commonName], .file stored),
    (["cache", Manifest.fileName], .file (Bytes.ofText manifest.toJson.pretty))]

/-- A history of one cache, in which every store was complete. -/
def alone (files : FileTree) (manifest : Manifest) (deposits : List Deposit) : History where
  files := files
  handles := [⟨{ dir := "cache", manifest }, deposits⟩]
  deposits := deposits
  written := deposits

def firstDeposit : Deposit := ⟨commonName, ⟨firstHash, "params", (1, 1)⟩, [1], true⟩

def secondDeposit : Deposit := ⟨commonName, ⟨secondHash, "params", (2, 1)⟩, [2], true⟩

def firstManifest : Manifest := Manifest.empty.insert commonName firstDeposit.entry

def lastManifest : Manifest := firstManifest.insert commonName secondDeposit.entry

def history : History :=
  alone (scene [2] (filled [2] lastManifest)) lastManifest [firstDeposit, secondDeposit]

theorem locate_out (output : Bytes) (inside : List (Place × Node)) :
    (scene output inside).locate "out" = .ok ["out"] := by
  rw [FileTree.locate, if_neg (by decide), pieces_out]
  rfl

theorem locate_inside (output : Bytes) (inside : List (Place × Node)) {name : String}
    (whole : '/' ∉ name.toList) (named : name ≠ "" ∧ name ≠ "." ∧ name ≠ "..") :
    (scene output inside).locate (Path.join "cache" name) = .ok ["cache", name] := by
  have led : (scene output inside).resolve (Path.folder "cache") = .ok ["cache"] := by
    rw [folder_cache]
    rfl
  exact FileTree.locate_join led rfl whole named

theorem inside_stored : Inside ["cache"] [] (Path.join "cache" commonName) :=
  ⟨[commonName], List.cons_ne_nil _ _,
    (FileTree.locate_ok (locate_inside [] [] whole_commonName named_commonName)).symm⟩

theorem next_open :
    ({ files := scene [1] [] } : History).next (.open "cache") =
      alone (scene [1] []) .empty [] := by
  have made : Files.makePath "cache" (scene [1] []) = .ok () (scene [1] []) := by cbv
  have loaded : Manifest.load (scene [1] []) "cache" = .empty := by
    rw [Manifest.load_eq, Manifest.path, locate_inside _ _ (by decide) (by decide)]
    rfl
  simp only [History.next, History.afterOpen, open_eq, made, loaded]
  rfl

theorem next_store {hash : String} (size : UInt32 × UInt32) {output : Bytes}
    {before after : List (Place × Node)} {manifest last : Manifest} (deposits : List Deposit)
    (named : storedName hash "params" (Path.lowerExtension "out") = commonName)
    (inserted : manifest.insert commonName ⟨hash, "params", (size.1.toNat, size.2.toNat)⟩ = last)
    (free : (scene output before).get? ["cache", commonName] ≠ some .directory)
    (clear : (scene output before).get? ["cache", Manifest.fileName] ≠ some .directory)
    (put : ((scene output before).put ["cache", commonName] (.file output)).put
      ["cache", Manifest.fileName] (.file (Bytes.ofText last.toJson.pretty)) = scene output after) :
    (alone (scene output before) manifest deposits).next (.store 0 hash "params" "out" size) =
      alone (scene output after) last (deposits ++
        [⟨commonName, ⟨hash, "params", (size.1.toNat, size.2.toNat)⟩, output, true⟩]) := by
  obtain ⟨ran, made⟩ := store_ok ⟨"cache", manifest, {}⟩ named inserted
    (locate_out output before) rfl
    (locate_inside output before whole_commonName named_commonName) free (by decide)
    (locate_inside output before (by decide) (by decide)) clear (by decide)
  have held : (alone (scene output before) manifest deposits).handles[0]? =
      some ⟨{ dir := "cache", manifest }, deposits⟩ := rfl
  have stored := History.afterStore_ok held ran made
  simp only [alone, put] at stored
  exact stored

theorem next_store_first :
    (alone (scene [1] []) .empty []).next (.store 0 firstHash "params" "out" (1, 1)) =
      alone (scene [1] (filled [1] firstManifest)) firstManifest [firstDeposit] :=
  next_store (1, 1) [] storedName_firstHash rfl (by decide) (by decide) rfl

theorem next_store_second :
    (alone (scene [2] (filled [1] firstManifest)) firstManifest [firstDeposit]).next
      (.store 0 secondHash "params" "out" (2, 1)) = history :=
  next_store (2, 1) [firstDeposit] storedName_secondHash rfl (by decide) (by decide) rfl

theorem reached : Reachable ["cache"] history := by
  have start : Reachable ["cache"] { files := scene [1] [] } := .start nofun
  have opened : Reachable ["cache"] (alone (scene [1] []) .empty []) := by
    rw [← next_open]
    exact start.next (by rw [Allowed, FileTree.directory, folder_cache]; rfl)
  have once : Reachable ["cache"]
      (alone (scene [1] (filled [1] firstManifest)) firstManifest [firstDeposit]) := by
    rw [← next_store_first]
    exact opened.next ⟨by rw [storedName_firstHash, placeOf_commonName]; decide, outside_out⟩
  have changed : Reachable ["cache"]
      (alone (scene [2] (filled [1] firstManifest)) firstManifest [firstDeposit]) := by
    have allowed : Allowed ["cache"] (alone (scene [1] (filled [1] firstManifest)) firstManifest
        [firstDeposit]) (.elsewhere (scene [2] (filled [1] firstManifest))) :=
      ⟨rfl, fun _ _ => rfl⟩
    exact once.next allowed
  rw [← next_store_second]
  exact changed.next ⟨by rw [storedName_secondHash, placeOf_commonName]; decide, outside_out⟩

theorem index_secondHash :
    lastManifest.index.get? (contentKey secondHash "params") = some commonName := rfl

def handle : Handle := ⟨{ dir := "cache", manifest := lastManifest }, [firstDeposit, secondDeposit]⟩

theorem restore_hits {hash : String}
    (led : lastManifest.index.get? (contentKey hash "params") = some commonName) :
    restore hash "params" "out" ⟨history.files, handle.cache⟩ =
      .ok (some ⟨Path.join "cache" commonName, (2, 1)⟩) ⟨history.files, handle.cache.hit⟩ := by
  have told : lastManifest.entries.get? commonName = some secondDeposit.entry := rfl
  have reached := locate_inside [2] (filled [2] lastManifest) whole_commonName named_commonName
  exact restore_ok handle.cache led told reached rfl (locate_out _ _) (by decide) (by decide)

theorem node?_out : history.files.node? "out" = some (.file [2]) := by
  rw [FileTree.node?]
  simp only [history, alone, locate_out]
  rfl

end Clash

/-- Asked for the first hash, the cache serves the file that was stored for the second. -/
theorem restore_clash :
    Reachable ["cache"] Clash.history ∧ Clash.history.handles[0]? = some Clash.handle ∧
    ¬ Inside ["cache"] Clash.history.files.here "out" ∧
    ∃ hit left, restore Clash.firstHash "params" "out" ⟨Clash.history.files, Clash.handle.cache⟩ =
        .ok (some hit) left ∧
      lastStore? Clash.history.deposits Clash.firstHash "params" = some Clash.firstDeposit ∧
      Clash.firstDeposit.entry.size = (1, 1) ∧ Clash.firstDeposit.content = [1] ∧
      hit.size = (2, 1) ∧ left.files.node? "out" = some (.file [2]) ∧
      ¬ ServesLast Clash.history.deposits Clash.firstHash "params" hit.size
        (left.files.node? "out") := by
  have last : lastStore? Clash.history.deposits Clash.firstHash "params" =
      some Clash.firstDeposit := rfl
  refine ⟨Clash.reached, rfl, Clash.outside_out, _, _, Clash.restore_hits rfl, last, rfl, rfl, rfl,
    Clash.node?_out, ?_⟩
  rintro ⟨other, latest, size, _⟩
  cases last.symm.trans latest
  contradiction

/-- Asked for the second hash, it serves the right file. -/
theorem restore_servesLast_iff_clash :
    Reachable ["cache"] Clash.history ∧ Clash.history.handles[0]? = some Clash.handle ∧
    ¬ Inside ["cache"] Clash.history.files.here "out" ∧
    restore Clash.secondHash "params" "out" ⟨Clash.history.files, Clash.handle.cache⟩ =
      .ok (some ⟨Path.join "cache" Clash.commonName, (2, 1)⟩)
        ⟨Clash.history.files, Clash.handle.cache.hit⟩ ∧
    Inside ["cache"] Clash.history.files.here (Path.join "cache" Clash.commonName) ∧
    ∃ keyed shown held,
      Trail ["cache"] Clash.handle.known Clash.history.deposits Clash.secondHash "params"
        keyed shown held ∧
      (2, 1) = shown.entry.size ∧ Clash.history.files.node? "out" = some (.file held.content) ∧
      (ServesLast Clash.history.deposits Clash.secondHash "params" (2, 1)
        (Clash.history.files.node? "out") ↔
        ∃ last, lastStore? Clash.history.deposits Clash.secondHash "params" = some last ∧
          shown.entry.size = last.entry.size ∧ held.content = last.content) :=
  have opened : Clash.history.handles[0]? = some Clash.handle := rfl
  have ran := Clash.restore_hits Clash.index_secondHash
  ⟨Clash.reached, opened, Clash.outside_out, ran, Clash.inside_stored,
    restore_servesLast_iff Clash.reached opened Clash.outside_out ran Clash.inside_stored⟩

end ImageDerivative.Cache
