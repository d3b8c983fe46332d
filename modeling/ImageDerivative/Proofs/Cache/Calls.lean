import Mathlib
import ImageDerivative.Proofs.Cache.History

/-! What the single calls do: the names that files are stored under, and what opening,
storing and serving leave of the files and of the manifest. -/
namespace ImageDerivative

theorem Manifest.placeOf_fileName (place : Place) :
    Cache.placeOf place Manifest.fileName = place ++ [Manifest.fileName] :=
  FileTree.target_of_not_mem place (by decide) (by decide)

theorem Manifest.load_eq (tree : FileTree) (dir : Path) :
    Manifest.load tree dir = match tree.locate (Manifest.path dir) with
      | .error _ => .empty
      | .ok place => match tree.get? place with
        | some (.file content) => (Manifest.ofBytes? content).getD .empty
        | _ => .empty := by
  unfold Manifest.load
  rw [Files.read_eq]
  cases tree.locate (Manifest.path dir) with
  | error failure => rfl
  | ok place =>
    simp only
    cases tree.get? place with
    | none => rfl
    | some node =>
      cases node with
      | file content => rfl
      | directory => rfl

namespace Cache

theorem dash_mem_storedName (sourceHash paramsHash extension : String) :
    '-' ∈ (storedName sourceHash paramsHash extension).toList := by
  unfold storedName
  simp only
  split <;> simp [String.toList_append]

theorem storedName_ne_empty (sourceHash paramsHash extension : String) :
    storedName sourceHash paramsHash extension ≠ "" := by
  intro same
  have dash := dash_mem_storedName sourceHash paramsHash extension
  rw [same] at dash
  contradiction

theorem open_eq (dir : Path) (files : FileTree) :
    Cache.open dir files = match Files.makePath dir files with
      | .ok _ made => .ok { dir, manifest := Manifest.load made dir } made
      | .error failure made => .error failure made := by
  simp only [Cache.open, bind, EStateM.bind]
  cases Files.makePath dir files with
  | ok _ made => rfl
  | error failure made => rfl

theorem open_ok {dir : Path} {files left : FileTree} {cache : Cache}
    (ran : Cache.open dir files = .ok cache left) :
    files.Grows left ∧ cache.dir = dir ∧ cache.manifest = Manifest.load left dir := by
  have grows := Files.Growing.makePath dir files
  unfold Files.after at grows
  rw [open_eq] at ran
  cases made : Files.makePath dir files with
  | ok _ between =>
    rw [made] at ran grows
    cases ran
    exact ⟨grows, rfl, rfl⟩
  | error failure between =>
    rw [made] at ran
    cases ran

theorem open_error {dir : Path} {files left : FileTree} {failure : IoFailure}
    (ran : Cache.open dir files = .error failure left) : files.Grows left := by
  have grows := Files.Growing.makePath dir files
  unfold Files.after at grows
  rw [open_eq] at ran
  cases made : Files.makePath dir files with
  | ok _ between =>
    rw [made] at ran
    cases ran
  | error failure between =>
    rw [made] at ran grows
    cases ran
    exact grows

section Directory

variable {place : Place} {files : FileTree} {dir : Path}

/-- Where a name inside the directory at `place` leads. -/
theorem target_inside {here : Place} (there : FileTree.directory here dir = place) {name : String}
    (some : name ≠ "") :
    FileTree.target here (Path.pieces (Path.join dir name)) = placeOf place name := by
  rw [FileTree.target_join here _ some, there]
  rfl

/-- What a copy puts into the directory is what its source holds. Only outside can it find
its own source in the place, which the copy empties. -/
theorem copied_inside (there : FileTree.directory files.here dir = place) {copied : FileTree}
    {name : String} {output : Path} {content : Bytes} (some : name ≠ "")
    (outside : ¬ Inside place files.here output)
    (node : files.node? output = .some (.file content))
    (ran : Files.copy output (Path.join dir name) files = .ok () copied) :
    ∃ put, copied = files.put (placeOf place name) (.file put) ∧
      files.get? (placeOf place name) ≠ .some .directory ∧
      ∀ inner ≠ [], placeOf place name = place ++ inner → put = content := by
  obtain ⟨source, goal, copy, located, found, reached, free, left⟩ := Files.copy_ok ran
  obtain rfl : goal = placeOf place name :=
    (FileTree.locate_ok reached).trans (target_inside there some)
  refine ⟨_, left, free, fun inner within leads => ?_⟩
  have apart : source ≠ placeOf place name := by
    rw [leads, FileTree.locate_ok located]
    exact fun same => outside ⟨inner, within, same⟩
  rw [FileTree.node?_eq located, found] at node
  rw [if_neg apart]
  exact Node.file.inj (Option.some.inj node)

theorem saved_inside (there : FileTree.directory files.here dir = place) {left : FileTree}
    {manifest : Manifest} (ran : manifest.save dir files = .ok () left) :
    files.get? (place ++ [Manifest.fileName]) ≠ some .directory ∧
      left = files.put (place ++ [Manifest.fileName])
        (.file (Bytes.ofText manifest.toJson.pretty)) := by
  obtain ⟨goal, located, free, rfl⟩ := Files.write_ok ran
  have leads : goal = place ++ [Manifest.fileName] := by
    rw [FileTree.locate_ok located, Manifest.path, target_inside there (by decide),
      Manifest.placeOf_fileName]
  rw [← leads]
  exact ⟨free, rfl⟩

end Directory

section Storing

variable {sourceHash paramsHash name : String} {output : Path} {size : Nat × Nat}
  {files : FileTree} {cache : Cache} {manifest : Manifest}

theorem store_eq (named : storedName sourceHash paramsHash (Path.lowerExtension output) = name)
    (inserted : cache.manifest.insert name ⟨sourceHash, paramsHash, size⟩ = manifest) :
    store sourceHash paramsHash output size ⟨files, cache⟩ =
      match Files.copy output (Path.join cache.dir name) files with
      | .error failure left => .error failure ⟨left, cache⟩
      | .ok _ copied => match manifest.save cache.dir copied with
        | .error failure left => .error failure ⟨left, { cache with manifest }⟩
        | .ok _ saved => .ok (Path.join cache.dir name) ⟨saved, { cache with manifest }⟩ := by
  subst named
  unfold store
  simp only [bind, EStateM.bind, get, getThe, MonadStateOf.get, EStateM.get, liftM, monadLift,
    MonadLift.monadLift, inserted]
  cases Files.copy output (Path.join cache.dir _) files with
  | error failure left => rfl
  | ok _ copied =>
    simp only [Session.update, modify, modifyGet, MonadStateOf.modifyGet, EStateM.modifyGet]
    cases Manifest.save manifest cache.dir copied with
    | error failure left => rfl
    | ok _ saved => rfl

theorem store_done {stored : Path} {after : FileTree} {left : Cache}
    (named : storedName sourceHash paramsHash (Path.lowerExtension output) = name)
    (ran : store sourceHash paramsHash output size ⟨files, cache⟩ = .ok stored ⟨after, left⟩) :
    ∃ copied, Files.copy output (Path.join cache.dir name) files = .ok () copied ∧
      (cache.manifest.insert name ⟨sourceHash, paramsHash, size⟩).save cache.dir copied =
        .ok () after := by
  rw [store_eq named rfl] at ran
  split at ran
  next => cases ran
  next copied copying =>
    split at ran
    next => cases ran
    next saved saving =>
      cases ran
      exact ⟨copied, copying, saving⟩

theorem deposit?_eq (named : storedName sourceHash paramsHash (Path.lowerExtension output) = name)
    (inserted : cache.manifest.insert name ⟨sourceHash, paramsHash, size⟩ = manifest) :
    deposit? files cache sourceHash paramsHash output size =
      match Files.copy output (Path.join cache.dir name) files with
      | .error _ _ => none
      | .ok _ copied => match files.node? output with
        | some (.file content) => some ⟨name, ⟨sourceHash, paramsHash, size⟩, content,
          match manifest.save cache.dir copied with
          | .ok _ _ => true
          | .error _ _ => false⟩
        | _ => none := by
  simp only [deposit?, named, store_eq named inserted]
  cases Files.copy output (Path.join cache.dir name) files with
  | error failure left =>
    cases files.node? output with
    | none => rfl
    | some node => cases node <;> rfl
  | ok _ copied =>
    cases files.node? output with
    | none => rfl
    | some node =>
      cases node with
      | directory => rfl
      | file content =>
        simp only
        cases manifest.save cache.dir copied with
        | error failure left => rfl
        | ok _ saved => rfl

variable (size files cache) in
/-- A store either leaves everything as it was, or makes a deposit of the file it copies
and then tries to write the manifest. -/
theorem store_cases (named : storedName sourceHash paramsHash (Path.lowerExtension output) = name)
    (inserted : cache.manifest.insert name ⟨sourceHash, paramsHash, size⟩ = manifest) :
    deposit? files cache sourceHash paramsHash output size = none ∧
      after (store sourceHash paramsHash output size) ⟨files, cache⟩ = ⟨files, cache⟩ ∨
    ∃ content complete copied left,
      deposit? files cache sourceHash paramsHash output size =
        some ⟨name, ⟨sourceHash, paramsHash, size⟩, content, complete⟩ ∧
      after (store sourceHash paramsHash output size) ⟨files, cache⟩ =
        ⟨left, { cache with manifest }⟩ ∧
      files.node? output = some (.file content) ∧
      Files.copy output (Path.join cache.dir name) files = .ok () copied ∧
      (complete = true ∧ manifest.save cache.dir copied = .ok () left ∨
        complete = false ∧ left = copied) := by
  rw [deposit?_eq named inserted, after, store_eq named inserted]
  cases copying : Files.copy output (Path.join cache.dir name) files with
  | error failure between =>
    cases Files.copy_error copying
    exact .inl ⟨rfl, rfl⟩
  | ok _ copied =>
    obtain ⟨place, there, content, located, found, _⟩ := Files.copy_ok copying
    have node : files.node? output = some (.file content) :=
      (FileTree.node?_eq located).trans found
    rw [node]
    cases saving : manifest.save cache.dir copied with
    | error failure between =>
      cases Files.write_error saving
      exact .inr ⟨content, false, _, _, by simp only [saving], by simp only [saving], rfl, rfl,
        .inr ⟨rfl, rfl⟩⟩
    | ok _ saved =>
      exact .inr ⟨content, true, _, saved, by simp only [saving], by simp only [saving], rfl, rfl,
        .inl ⟨rfl, saving⟩⟩

variable (cache) in
/-- A store succeeds where the three files are in different places that can be reached. -/
theorem store_ok {source there goal : Place} {content : Bytes}
    (named : storedName sourceHash paramsHash (Path.lowerExtension output) = name)
    (inserted : cache.manifest.insert name ⟨sourceHash, paramsHash, size⟩ = manifest)
    (located : files.locate output = .ok source)
    (found : files.get? source = some (.file content))
    (reached : files.locate (Path.join cache.dir name) = .ok there)
    (free : files.get? there ≠ some .directory) (apart : source ≠ there)
    (kept : files.locate (Manifest.path cache.dir) = .ok goal)
    (clear : files.get? goal ≠ some .directory) (other : goal ≠ there) :
    store sourceHash paramsHash output size ⟨files, cache⟩ =
      .ok (Path.join cache.dir name) ⟨(files.put there (.file content)).put goal
        (.file (Bytes.ofText manifest.toJson.pretty)), { cache with manifest }⟩ ∧
    deposit? files cache sourceHash paramsHash output size =
      some ⟨name, ⟨sourceHash, paramsHash, size⟩, content, true⟩ := by
  have node : files.node? output = some (.file content) :=
    (FileTree.node?_eq located).trans found
  have copied : Files.copy output (Path.join cache.dir name) files =
      .ok () (files.put there (.file content)) := Files.copy_apart located found reached free apart
  have saved : manifest.save cache.dir (files.put there (.file content)) =
      .ok () ((files.put there (.file content)).put goal
        (.file (Bytes.ofText manifest.toJson.pretty))) := by
    have opens := FileTree.Opens.put_file content free
    refine Files.write_free _ (opens.locate (FileTree.here_put _ _ _) kept) ?_
    rw [FileTree.get?_put _ (FileTree.ne_nil_of_get? free), if_neg other]
    exact clear
  rw [deposit?_eq named inserted, store_eq named inserted, copied, node]
  simp only [saved, and_self]

end Storing

theorem History.afterStore_ok {history : History} {number : Nat} {handle : Handle}
    {sourceHash paramsHash : String} {output stored : Path} {size : Nat × Nat} {left : Session}
    {deposit : Deposit} (held : history.handles[number]? = some handle)
    (ran : store sourceHash paramsHash output size ⟨history.files, handle.cache⟩ = .ok stored left)
    (made : deposit? history.files handle.cache sourceHash paramsHash output size = some deposit) :
    history.afterStore number sourceHash paramsHash output size = {
      files := left.files
      handles := history.handles.set number ⟨left.cache, handle.known ++ [deposit]⟩
      deposits := history.deposits ++ [deposit]
      written := if deposit.complete then handle.known ++ [deposit] else history.written } := by
  unfold History.afterStore
  simp only [held, made, after, ran]

theorem restore_eq (sourceHash paramsHash : String) (output : Path) (files : FileTree)
    (cache : Cache) :
    restore sourceHash paramsHash output ⟨files, cache⟩ =
      match cache.manifest.findCached? files cache.dir sourceHash paramsHash with
      | none => .ok none ⟨files, cache.miss⟩
      | some (name, entry) =>
        if Path.same (Path.join cache.dir name) output then
          .ok (some ⟨Path.join cache.dir name, entry.size⟩) ⟨files, cache.hit⟩
        else match Files.copy (Path.join cache.dir name) output files with
          | .error failure left => .error failure ⟨left, cache⟩
          | .ok _ left => .ok (some ⟨Path.join cache.dir name, entry.size⟩) ⟨left, cache.hit⟩ := by
  unfold restore
  simp only [bind, EStateM.bind, get, getThe, MonadStateOf.get, EStateM.get, liftM, monadLift,
    MonadLift.monadLift]
  cases cache.manifest.findCached? files cache.dir sourceHash paramsHash with
  | none => rfl
  | some found =>
    obtain ⟨name, entry⟩ := found
    cases same : Path.same (Path.join cache.dir name) output with
    | true =>
      simp only [same]
      rfl
    | false =>
      simp only [same, Bool.false_eq_true, if_false, EStateM.bind]
      cases Files.copy (Path.join cache.dir name) output files with
      | error failure left => rfl
      | ok _ left => rfl

variable {sourceHash paramsHash : String} {output : Path} {files : FileTree} {cache : Cache}

/-- A restore keeps the manifest, and changes no file but its output. -/
theorem restore_cases (sourceHash paramsHash : String) (output : Path) (files : FileTree)
    (cache : Cache) :
    ∃ left stats, after (restore sourceHash paramsHash output) ⟨files, cache⟩ =
        ⟨left, { cache with stats }⟩ ∧
      (left = files ∨ ∃ goal content, goal = FileTree.target files.here (Path.pieces output) ∧
        files.get? goal ≠ some .directory ∧ left = files.put goal (.file content)) := by
  rw [after, restore_eq]
  cases cache.manifest.findCached? files cache.dir sourceHash paramsHash with
  | none => exact ⟨files, _, rfl, .inl rfl⟩
  | some found =>
    obtain ⟨name, entry⟩ := found
    simp only
    by_cases same : Path.same (Path.join cache.dir name) output
    · rw [if_pos same]
      exact ⟨files, _, rfl, .inl rfl⟩
    · rw [if_neg same]
      cases copying : Files.copy (Path.join cache.dir name) output files with
      | error failure left =>
        cases Files.copy_error copying
        exact ⟨files, _, rfl, .inl rfl⟩
      | ok _ left =>
        obtain ⟨_, goal, _, _, _, located, free, put⟩ := Files.copy_ok copying
        exact ⟨left, _, rfl, .inr ⟨goal, _, FileTree.locate_ok located, free, put⟩⟩

/-- A miss only counts. -/
theorem restore_none {left : FileTree} {counted : Cache}
    (ran : restore sourceHash paramsHash output ⟨files, cache⟩ = .ok none ⟨left, counted⟩) :
    left = files ∧ counted.dir = cache.dir ∧ counted.manifest = cache.manifest := by
  rw [restore_eq] at ran
  split at ran
  next =>
    cases ran
    exact ⟨rfl, rfl, rfl⟩
  next =>
    split at ran
    next => cases ran
    next => split at ran <;> cases ran

/-- A hit is what the manifest says of the name that the key leads to, with a copy of the
file of that name. -/
theorem restore_hit {hit : CacheHit} {left : Session}
    (ran : restore sourceHash paramsHash output ⟨files, cache⟩ = .ok (some hit) left) :
    ∃ name entry, cache.manifest.index.get? (contentKey sourceHash paramsHash) = some name ∧
      cache.manifest.entries.get? name = some entry ∧
      hit = ⟨Path.join cache.dir name, entry.size⟩ ∧
      (Path.same (Path.join cache.dir name) output ∨
        Files.copy (Path.join cache.dir name) output files = .ok () left.files) := by
  rw [restore_eq] at ran
  cases cached : cache.manifest.findCached? files cache.dir sourceHash paramsHash with
  | none =>
    rw [cached] at ran
    cases ran
  | some found =>
    obtain ⟨name, entry⟩ := found
    obtain ⟨looked, _⟩ := Manifest.findCached?_eq_some_iff.mp cached
    obtain ⟨led, held⟩ := Manifest.lookup?_eq_some_iff.mp looked
    refine ⟨name, entry, led, held, ?_⟩
    rw [cached] at ran
    simp only at ran
    split at ran
    next same =>
      cases ran
      exact ⟨rfl, .inl same⟩
    next =>
      cases copying : Files.copy (Path.join cache.dir name) output files with
      | error failure left =>
        rw [copying] at ran
        cases ran
      | ok _ left =>
        rw [copying] at ran
        cases ran
        exact ⟨rfl, .inr rfl⟩

variable (cache) in
/-- A restore hits where the manifest leads to a file and the output can be written. -/
theorem restore_ok {name : String} {entry : CacheEntry} {place goal : Place} {content : Bytes}
    (led : cache.manifest.index.get? (contentKey sourceHash paramsHash) = some name)
    (told : cache.manifest.entries.get? name = some entry)
    (reached : files.locate (Path.join cache.dir name) = .ok place)
    (found : files.get? place = some (.file content))
    (located : files.locate output = .ok goal)
    (free : files.get? goal ≠ some .directory) (apart : place ≠ goal) :
    restore sourceHash paramsHash output ⟨files, cache⟩ =
      .ok (some ⟨Path.join cache.dir name, entry.size⟩)
        ⟨files.put goal (.file content), cache.hit⟩ := by
  have exist : files.exists? (Path.join cache.dir name) = true := by
    rw [FileTree.exists?, FileTree.node?_eq reached, found]
    rfl
  have cached : cache.manifest.findCached? files cache.dir sourceHash paramsHash =
      some (name, entry) :=
    Manifest.findCached?_eq_some_iff.mpr ⟨Manifest.lookup?_eq_some_iff.mpr ⟨led, told⟩, exist⟩
  have some : Path.join cache.dir name ≠ "" := by
    intro empty
    rw [empty] at reached
    cases reached
  have differ : ¬ Path.same (Path.join cache.dir name) output := by
    intro same
    have equal := FileTree.target_eq_of_same files.here some same
    rw [← FileTree.locate_ok reached, ← FileTree.locate_ok located] at equal
    exact apart equal
  have copied : Files.copy (Path.join cache.dir name) output files =
      .ok () (files.put goal (.file content)) := Files.copy_apart reached found located free apart
  rw [restore_eq, cached]
  simp only [if_neg differ, copied]

end Cache

end ImageDerivative
