import Mathlib
import ImageDerivative.Proofs.Cache.Calls

/-! Every call keeps the stored files, the manifest of the directory and those of the open
caches in step with the list of deposits. -/
namespace ImageDerivative.Cache

/-- An open cache of the directory at `place`, which tells of deposits in it. -/
structure Handle.Fits (place here : Place) (deposits : List Deposit) (handle : Handle) : Prop where
  dir : FileTree.directory here handle.cache.dir = place
  tells : Tells handle.cache.manifest handle.known
  known : handle.known ⊆ deposits

namespace Handle.Fits

variable {place here : Place} {deposits : List Deposit} {handle : Handle}

theorem mono {others : List Deposit} (fits : handle.Fits place here deposits)
    (more : deposits ⊆ others) : handle.Fits place here others :=
  ⟨fits.dir, fits.tells, List.Subset.trans fits.known more⟩

/-- A cache knows of a deposit that it has made. -/
theorem deposit (fits : handle.Fits place here deposits) (deposit : Deposit)
    (word : Manifest.IsWordSize deposit.entry.size) :
    Fits place here (deposits ++ [deposit]) ⟨{ handle.cache with
      manifest := handle.cache.manifest.insert deposit.name deposit.entry },
      handle.known ++ [deposit]⟩ := by
  refine ⟨fits.dir, fits.tells.insert deposit word, List.append_subset.mpr ⟨?_, ?_⟩⟩
  · exact List.Subset.trans fits.known (List.subset_append_left _ _)
  · exact List.subset_append_right _ _

theorem leads (fits : handle.Fits place here deposits) {name : String} (some : name ≠ "") :
    FileTree.target here (Path.pieces (Path.join handle.cache.dir name)) = placeOf place name :=
  target_inside fits.dir some

end Handle.Fits

/-- What holds of every reachable history of the directory at `place`. -/
structure Valid (place : Place) (history : History) : Prop where
  /-- A file inside holds what the latest deposit at its place put there. -/
  files : ∀ {inner deposit}, inner ≠ [] →
    latest? history.deposits (placeOf place ·.name = place ++ inner) = some deposit →
      history.files.get? (place ++ inner) = some (.file deposit.content)
  named : ∀ deposit ∈ history.deposits,
    deposit.name ≠ "" ∧ placeOf place deposit.name ≠ place ++ [Manifest.fileName]
  manifest : ∀ {content},
    history.files.get? (place ++ [Manifest.fileName]) = some (.file content) →
      ∃ manifest, Manifest.ofBytes? content = some manifest ∧ Tells manifest history.written
  written : history.written ⊆ history.deposits
  handles : ∀ handle ∈ history.handles,
    handle.Fits place history.files.here history.deposits

namespace Valid

variable {place : Place} {history : History}

theorem start {files : FileTree}
    (fresh : ∀ content, files.get? (place ++ [Manifest.fileName]) ≠ some (.file content)) :
    Valid place { files } where
  files := fun _ found => (nomatch found)
  named := fun _ member => absurd member List.not_mem_nil
  manifest := fun found => absurd found (fresh _)
  written := List.Subset.refl _
  handles := fun _ member => absurd member List.not_mem_nil

/-- What happens outside the directory does not matter. -/
theorem elsewhere (valid : Valid place history) {files : FileTree}
    (here : files.here = history.files.here)
    (same : ∀ inner ≠ [], files.get? (place ++ inner) = history.files.get? (place ++ inner)) :
    Valid place { history with files } where
  files := by
    intro inner deposit below found
    rw [same inner below]
    exact valid.files below found
  named := valid.named
  manifest := by
    intro content found
    rw [same _ (List.cons_ne_nil _ _)] at found
    exact valid.manifest found
  written := valid.written
  handles := by
    intro handle member
    rw [here]
    exact valid.handles handle member

theorem put_outside (valid : Valid place history) {goal : Place} (content : Bytes)
    (outside : ∀ inner ≠ [], goal ≠ place ++ inner)
    (free : history.files.get? goal ≠ some .directory) :
    Valid place { history with files := history.files.put goal (.file content) } := by
  refine valid.elsewhere (FileTree.here_put _ _ _) fun inner some => ?_
  have apart : place ++ inner ≠ goal := fun same => outside inner some same.symm
  rw [FileTree.get?_put _ (FileTree.ne_nil_of_get? free), if_neg apart]

theorem grown (valid : Valid place history) {left : FileTree}
    (grows : history.files.Grows left) : Valid place { history with files := left } where
  files := fun below found => grows.keeps (valid.files below found)
  named := valid.named
  manifest := fun found => valid.manifest (grows.files found)
  written := valid.written
  handles := by
    intro handle member
    rw [grows.here_eq]
    exact valid.handles handle member

theorem set (valid : Valid place history) {handle : Handle} (number : Nat)
    (fits : handle.Fits place history.files.here history.deposits) :
    Valid place { history with handles := history.handles.set number handle } where
  files := valid.files
  named := valid.named
  manifest := valid.manifest
  written := valid.written
  handles := by
    intro other member
    cases List.mem_or_eq_of_mem_set member with
    | inl kept => exact valid.handles other kept
    | inr changed => rw [changed]; exact fits

/-- A manifest that is loaded from the directory tells of what was written. -/
theorem tells_load (valid : Valid place history) {dir : Path}
    (there : FileTree.directory history.files.here dir = place) :
    Tells (Manifest.load history.files dir) history.written := by
  rw [Manifest.load_eq]
  cases located : history.files.locate (Manifest.path dir) with
  | error failure => exact Tells.empty _
  | ok goal =>
    have leads : goal = place ++ [Manifest.fileName] := by
      rw [FileTree.locate_ok located, Manifest.path, FileTree.target_join _ _ (by decide), there]
      exact Manifest.placeOf_fileName place
    simp only
    cases found : history.files.get? goal with
    | none => exact Tells.empty _
    | some node =>
      cases node with
      | directory => exact Tells.empty _
      | file content =>
        obtain ⟨manifest, loaded, tells⟩ := valid.manifest (leads ▸ found)
        simp only [loaded, Option.getD_some]
        exact tells

theorem afterOpen (valid : Valid place history) {dir : Path}
    (there : FileTree.directory history.files.here dir = place) :
    Valid place (history.afterOpen dir) := by
  unfold History.afterOpen
  cases opened : Cache.open dir history.files with
  | error failure left => exact valid.grown (open_error opened)
  | ok cache left =>
    obtain ⟨grows, same, loaded⟩ := open_ok opened
    have grown := valid.grown grows
    have fits : Handle.Fits place left.here history.deposits ⟨cache, history.written⟩ := by
      refine ⟨?_, ?_, valid.written⟩
      · rw [same, grows.here_eq]
        exact there
      · rw [loaded]
        exact grown.tells_load (by rw [grows.here_eq]; exact there)
    refine ⟨grown.files, grown.named, grown.manifest, grown.written, ?_⟩
    intro handle member
    cases List.mem_append.mp member with
    | inl before => exact grown.handles handle before
    | inr new => rw [List.mem_singleton.mp new]; exact fits

/-- The file of a deposit is in its place, and the cache that made it knows of it. -/
theorem deposit (valid : Valid place history) (deposit : Deposit) {number : Nat}
    {handle : Handle} {content : Bytes} (held : history.handles[number]? = some handle)
    (word : Manifest.IsWordSize deposit.entry.size) (some : deposit.name ≠ "")
    (other : placeOf place deposit.name ≠ place ++ [Manifest.fileName])
    (below : placeOf place deposit.name ≠ [])
    (whole : ∀ inner ≠ [], placeOf place deposit.name = place ++ inner →
      content = deposit.content) :
    Valid place {
      files := history.files.put (placeOf place deposit.name) (.file content)
      handles := history.handles.set number
        ⟨{ handle.cache with
            manifest := handle.cache.manifest.insert deposit.name deposit.entry },
          handle.known ++ [deposit]⟩
      deposits := history.deposits ++ [deposit]
      written := history.written } where
  files := by
    intro inner last within found
    rw [latest?_append] at found
    rw [FileTree.get?_put _ below]
    split at found
    next same =>
      cases found
      rw [if_pos same.symm, whole inner within same]
    next apart =>
      rw [if_neg (Ne.symm apart)]
      exact valid.files within found
  named := by
    intro former member
    cases List.mem_append.mp member with
    | inl before => exact valid.named former before
    | inr new => rw [List.mem_singleton.mp new]; exact ⟨some, other⟩
  manifest := by
    intro text found
    rw [FileTree.get?_put _ below, if_neg (Ne.symm other)] at found
    exact valid.manifest found
  written := fun _ member => List.mem_append_left _ (valid.written member)
  handles := by
    have fits := valid.handles handle (List.mem_of_getElem? held)
    intro former member
    rw [FileTree.here_put]
    cases List.mem_or_eq_of_mem_set member with
    | inl kept => exact (valid.handles former kept).mono (List.subset_append_left _ _)
    | inr changed => rw [changed]; exact fits.deposit deposit word

/-- The manifest that a cache writes tells of the deposits that it knows of. -/
theorem save (valid : Valid place history) {handle : Handle}
    (member : handle ∈ history.handles) :
    Valid place { history with
      files := history.files.put (place ++ [Manifest.fileName])
        (.file (Bytes.ofText handle.cache.manifest.toJson.pretty))
      written := handle.known } where
  files := by
    intro inner deposit below found
    obtain ⟨member, leads⟩ := mem_of_latest? found
    have other := (valid.named deposit member).2
    rw [leads] at other
    rw [FileTree.get?_put _ (List.append_ne_nil_of_right_ne_nil _ (List.cons_ne_nil _ _)),
      if_neg other]
    exact valid.files below found
  named := valid.named
  manifest := by
    intro content found
    rw [FileTree.get?_put _ (List.append_ne_nil_of_right_ne_nil _ (List.cons_ne_nil _ _)),
      if_pos rfl] at found
    cases found
    exact (valid.handles handle member).tells.ofBytes?
  written := (valid.handles handle member).known
  handles := by
    rw [FileTree.here_put]
    exact valid.handles

theorem afterStore (valid : Valid place history) {number : Nat} {sourceHash paramsHash : String}
    {output : Path} {size : Nat × Nat} (word : Manifest.IsWordSize size)
    (other : placeOf place (storedName sourceHash paramsHash (Path.lowerExtension output)) ≠
      place ++ [Manifest.fileName])
    (outside : ¬ Inside place history.files.here output) :
    Valid place (history.afterStore number sourceHash paramsHash output size) := by
  unfold History.afterStore
  cases held : history.handles[number]? with
  | none => exact valid
  | some handle =>
    have fits := valid.handles handle (List.mem_of_getElem? held)
    generalize named :
      storedName sourceHash paramsHash (Path.lowerExtension output) = name at other
    have some : name ≠ "" := named ▸ storedName_ne_empty _ _ _
    obtain ⟨none, left⟩ | ⟨content, complete, copied, left, made, leaves, node, copying, saving⟩ :=
      store_cases size history.files handle.cache named rfl
    · simp only [none, left]
      exact valid.set number fits
    · obtain ⟨put, rfl, free, whole⟩ := copied_inside fits.dir some outside node copying
      have deposited := valid.deposit ⟨name, ⟨sourceHash, paramsHash, size⟩, content, complete⟩
        held word some other (FileTree.ne_nil_of_get? free) whole
      simp only [made, leaves]
      obtain ⟨rfl, saved⟩ | ⟨rfl, rfl⟩ := saving
      · have fits := fits.deposit ⟨name, ⟨sourceHash, paramsHash, size⟩, content, true⟩ word
        rw [← FileTree.here_put history.files (placeOf place name) (.file put)] at fits
        have written := deposited.save (List.mem_set (List.getElem?_eq_some_iff.mp held).1 _)
        rw [(saved_inside fits.dir saved).2]
        simp only [if_true]
        exact written
      · exact deposited

theorem afterRestore (valid : Valid place history) {number : Nat}
    {sourceHash paramsHash : String} {output : Path}
    (outside : ¬ Inside place history.files.here output) :
    Valid place (history.afterRestore number sourceHash paramsHash output) := by
  unfold History.afterRestore
  cases held : history.handles[number]? with
  | none => exact valid
  | some handle =>
    have fits := valid.handles handle (List.mem_of_getElem? held)
    obtain ⟨left, stats, leaves, rfl | ⟨goal, content, leads, free, rfl⟩⟩ :=
      restore_cases sourceHash paramsHash output history.files handle.cache
    · simp only [leaves]
      exact valid.set number ⟨fits.dir, fits.tells, fits.known⟩
    · simp only [leaves]
      have put := valid.put_outside content
        (fun inner below same => outside ⟨inner, below, leads ▸ same⟩) free
      refine put.set number ⟨?_, fits.tells, fits.known⟩
      rw [FileTree.here_put]
      exact fits.dir

theorem next (valid : Valid place history) {call : Call} (allowed : Allowed place history call) :
    Valid place (history.next call) := by
  cases call with
  | elsewhere files => exact valid.elsewhere allowed.1 allowed.2
  | «open» dir => exact valid.afterOpen allowed
  | store number sourceHash paramsHash output size =>
    exact valid.afterStore ⟨size.1.toNat_lt, size.2.toNat_lt⟩ allowed.1 allowed.2
  | restore number sourceHash paramsHash output => exact valid.afterRestore allowed

end Valid

theorem Reachable.valid {place : Place} {history : History} (reached : Reachable place history) :
    Valid place history := by
  induction reached with
  | start fresh => exact Valid.start fresh
  | next _ allowed ih => exact ih.next allowed

end ImageDerivative.Cache
