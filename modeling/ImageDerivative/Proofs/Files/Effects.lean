import ImageDerivative.Proofs.Files.Places

/-! What the operations on a tree of files change, and what they leave as it was. -/
namespace ImageDerivative

namespace FileTree

theorem get?_map (nodes : List (Place × Node)) (place other : Place) (node : Node) :
    ((nodes.map fun entry => if entry.1 = place then (place, node) else entry).find?
      fun entry => entry.1 = other).map Prod.snd =
      if other = place then (nodes.find? fun entry => entry.1 = place).map fun _ => node
      else (nodes.find? fun entry => entry.1 = other).map Prod.snd := by
  induction nodes with
  | nil => simp
  | cons entry rest ih =>
    rw [List.map_cons, List.find?_cons, List.find?_cons, List.find?_cons]
    by_cases same : entry.1 = place
    · by_cases here : other = place
      · simp [same, here]
      · simp only [same, if_true, Ne.symm here, decide_false]
        rw [ih, if_neg here]
        simp [here]
    · by_cases here : other = place
      · simp only [same, if_false, here, decide_false] at ih ⊢
        exact ih
      · simp only [same, if_false]
        by_cases found : entry.1 = other
        · simp [found, here]
        · simp only [found, decide_false]
          rw [ih]

/-- The root is a directory. -/
theorem ne_nil_of_get? {tree : FileTree} {place : Place}
    (free : tree.get? place ≠ some .directory) : place ≠ [] := by
  rintro rfl
  exact free rfl

theorem get?_put (tree : FileTree) {place : Place} (below : place ≠ []) (other : Place)
    (node : Node) :
    (tree.put place node).get? other = if other = place then some node else tree.get? other := by
  by_cases root : other = []
  · have apart : ¬ other = place := fun same => below (same.symm.trans root)
    rw [if_neg apart, get?, get?, if_pos root, if_pos root]
  · unfold put
    split
    next known =>
      rw [get?, if_neg below, Option.isSome_map] at known
      obtain ⟨entry, found⟩ := Option.isSome_iff_exists.mp known
      rw [get?, get?, if_neg root, if_neg root, get?_map, found]
      rfl
    next unknown =>
      rw [get?, if_neg below, Option.isSome_map, Bool.not_eq_true, Option.isSome_eq_false_iff,
        Option.isNone_iff_eq_none] at unknown
      rw [get?, get?, if_neg root, if_neg root, List.find?_append]
      by_cases here : other = place
      · rw [if_pos here, here, unknown]
        simp
      · have apart : ¬ place = other := Ne.symm here
        rw [if_neg here]
        cases tree.nodes.find? fun entry => entry.1 = other with
        | none => simp [apart]
        | some entry => rfl

theorem here_put (tree : FileTree) (place : Place) (node : Node) :
    (tree.put place node).here = tree.here := by
  unfold put
  split <;> rfl

/-- Every directory of `tree` is one of `after`. -/
def Opens (tree after : FileTree) : Prop :=
  ∀ place, tree.get? place = some .directory → after.get? place = some .directory

theorem enter_ok {tree : FileTree} {place : Place} :
    tree.enter place = .ok () ↔ tree.get? place = some .directory := by
  unfold enter
  split <;> simp_all

theorem follow_append {tree : FileTree} {place between : Place} {first : List String}
    (found : tree.follow place first = .ok between) (last : List String) :
    tree.follow place (first ++ last) = tree.follow between last := by
  induction first generalizing place with
  | nil =>
    cases found
    rfl
  | cons piece rest ih =>
    simp only [List.cons_append, follow, bind, Except.bind] at found ⊢
    cases entered : tree.enter place with
    | error failure =>
      rw [entered] at found
      contradiction
    | ok _ =>
      rw [entered] at found
      simp only at found ⊢
      by_cases silent : piece = "" ∨ piece = "."
      · rw [if_pos silent] at found ⊢
        exact ih found
      · rw [if_neg silent] at found ⊢
        by_cases up : piece = ".."
        · rw [if_pos up] at found ⊢
          exact ih found
        · rw [if_neg up] at found ⊢
          exact ih found

/-- A name in a directory that can be entered. -/
theorem locate_join {tree : FileTree} {dir : Path} {place : Place} {name : String}
    (led : tree.resolve (Path.folder dir) = .ok place) (opened : tree.get? place = some .directory)
    (whole : '/' ∉ name.toList) (named : name ≠ "" ∧ name ≠ "." ∧ name ≠ "..") :
    tree.locate (Path.join dir name) = .ok (place ++ [name]) := by
  obtain ⟨some, single, double⟩ := named
  have relative : Path.isAbsolute name = false := by
    by_contra absolute
    rw [Bool.not_eq_false, Path.isAbsolute_iff] at absolute
    exact whole (List.mem_of_mem_head? absolute)
  have joined := Path.pieces_join dir relative
  rw [Path.pieces_of_not_mem whole] at joined
  have nonempty : ¬ (Path.join dir name).isEmpty = true := fun empty =>
    Path.join_ne_empty dir some (String.isEmpty_iff.mp empty)
  have start : (Path.folder dir ++ [name]).head? = .some "" ↔
      (Path.folder dir).head? = .some "" := by
    cases Path.folder dir with
    | nil => simp [some]
    | cons piece rest => simp
  have silent : ¬ (name = "" ∨ name = ".") := not_or.mpr ⟨some, single⟩
  rw [locate, if_neg nonempty, joined, resolve]
  simp only [start]
  rw [follow_append led]
  simp only [follow, bind, Except.bind, enter_ok.mpr opened, if_neg silent, if_neg double]

/-- A name in the working directory. -/
theorem locate_name {tree : FileTree} (opened : tree.get? tree.here = some .directory)
    {name : String} (whole : '/' ∉ name.toList) (named : name ≠ "" ∧ name ≠ "." ∧ name ≠ "..") :
    tree.locate name = .ok (tree.here ++ [name]) := by
  obtain ⟨some, single, double⟩ := named
  have nonempty : ¬ name.isEmpty = true := fun empty => some (String.isEmpty_iff.mp empty)
  have relative : ¬ [name].head? = .some "" := fun same => some (Option.some.inj same)
  have silent : ¬ (name = "" ∨ name = ".") := not_or.mpr ⟨some, single⟩
  rw [locate, if_neg nonempty, Path.pieces_of_not_mem whole, resolve, if_neg relative]
  simp only [follow, bind, Except.bind, enter_ok.mpr opened, if_neg silent, if_neg double]

theorem Opens.follow {tree after : FileTree} (opens : Opens tree after) {place goal : Place}
    {pieces : List String} (found : tree.follow place pieces = .ok goal) :
    after.follow place pieces = .ok goal := by
  induction pieces generalizing place with
  | nil => exact found
  | cons piece rest ih =>
    simp only [FileTree.follow, bind, Except.bind] at found ⊢
    cases entered : tree.enter place with
    | error failure =>
      rw [entered] at found
      contradiction
    | ok _ =>
      rw [entered] at found
      rw [enter_ok.mpr (opens place (enter_ok.mp entered))]
      simp only at found ⊢
      split
      next silent =>
        rw [if_pos silent] at found
        exact ih found
      next loud =>
        rw [if_neg loud] at found
        split
        next up =>
          rw [if_pos up] at found
          exact ih found
        next down =>
          rw [if_neg down] at found
          exact ih found

theorem Opens.locate {tree after : FileTree} (opens : Opens tree after)
    (here : after.here = tree.here) {path : Path} {goal : Place}
    (found : tree.locate path = .ok goal) : after.locate path = .ok goal := by
  unfold FileTree.locate resolve at found ⊢
  split at found
  next => contradiction
  next some =>
    rw [if_neg some, here]
    exact opens.follow found

theorem Opens.put_file {tree : FileTree} {place : Place} (content : Bytes)
    (free : tree.get? place ≠ some .directory) : Opens tree (tree.put place (.file content)) := by
  intro other directory
  have apart : ¬ other = place := fun same => free (same ▸ directory)
  rw [get?_put tree (ne_nil_of_get? free), if_neg apart, directory]

theorem node?_eq {tree : FileTree} {path : Path} {place : Place}
    (located : tree.locate path = .ok place) : tree.node? path = tree.get? place := by
  rw [node?, located]

/-- A file that is put where a path leads is found there. -/
theorem node?_put {tree : FileTree} {path : Path} {place : Place} (content : Bytes)
    (located : tree.locate path = .ok place) (free : tree.get? place ≠ some .directory) :
    (tree.put place (.file content)).node? path = some (.file content) := by
  have opens := Opens.put_file content free
  rw [node?_eq (opens.locate (here_put tree place _) located), get?_put tree (ne_nil_of_get? free),
    if_pos rfl]

/-- A file that is put elsewhere does not matter. -/
theorem node?_put_of_ne {tree : FileTree} {path : Path} {goal : Place} {node : Node}
    (content : Bytes) (free : tree.get? goal ≠ some .directory)
    (apart : target tree.here (Path.pieces path) ≠ goal) (found : tree.node? path = some node) :
    (tree.put goal (.file content)).node? path = some node := by
  unfold node? at found
  split at found
  next place located =>
    have opens := Opens.put_file content free
    rw [← locate_ok located] at apart
    rw [node?_eq (opens.locate (here_put tree goal _) located), get?_put tree (ne_nil_of_get? free),
      if_neg apart, found]
  next => cases found

/-- `after` has directories that `tree` does not have, and is otherwise the same. -/
structure Grows (tree after : FileTree) : Prop where
  here_eq : after.here = tree.here
  keeps : ∀ {place node}, tree.get? place = some node → after.get? place = some node
  files : ∀ {place content}, after.get? place = some (.file content) →
    tree.get? place = some (.file content)

namespace Grows

theorem refl (tree : FileTree) : Grows tree tree := ⟨rfl, id, id⟩

theorem trans {tree between after : FileTree} (first : Grows tree between)
    (last : Grows between after) : Grows tree after where
  here_eq := last.here_eq.trans first.here_eq
  keeps := fun found => last.keeps (first.keeps found)
  files := fun found => first.files (last.files found)

theorem opens {tree after : FileTree} (grows : Grows tree after) : Opens tree after :=
  fun _ directory => grows.keeps directory

theorem node? {tree after : FileTree} (grows : Grows tree after) {path : Path} {node : Node}
    (found : tree.node? path = some node) : after.node? path = some node := by
  unfold FileTree.node? at found
  split at found
  next place located =>
    rw [node?_eq (grows.opens.locate grows.here_eq located)]
    exact grows.keeps found
  next => cases found

theorem put {tree : FileTree} {place : Place} (free : tree.get? place = none) :
    Grows tree (tree.put place .directory) := by
  have below : place ≠ [] := by
    rintro rfl
    contradiction
  refine ⟨here_put tree place _, fun {other node} found => ?_, fun {other content} found => ?_⟩
  · have apart : ¬ other = place := fun same => by rw [same, free] at found; contradiction
    rw [get?_put tree below, if_neg apart, found]
  · rw [get?_put tree below] at found
    split at found
    next => cases found
    next => exact found

end Grows

end FileTree

namespace Files

open FileTree

/-- The tree that an operation leaves, whether it fails or not. -/
def after {α : Type} (action : Files α) (tree : FileTree) : FileTree :=
  match action tree with
  | .ok _ tree => tree
  | .error _ tree => tree

/-- An operation that only makes directories. -/
def Growing {α : Type} (action : Files α) : Prop := ∀ tree, Grows tree (action.after tree)

namespace Growing

variable {α β : Type}

theorem pure (a : α) : Growing (pure a) := Grows.refl

theorem bind {action : Files α} {next : α → Files β} (first : Growing action)
    (last : ∀ a, Growing (next a)) : Growing (action >>= next) := by
  intro tree
  have begun := first tree
  simp only [after, Bind.bind, EStateM.bind] at begun ⊢
  cases result : action tree with
  | ok a between =>
    rw [result] at begun
    exact begun.trans (last a between)
  | error failure between =>
    rw [result] at begun
    exact begun

theorem tryCatch {action : Files α} {handler : IoFailure → Files α} (first : Growing action)
    (last : ∀ failure, Growing (handler failure)) : Growing (tryCatch action handler) := by
  intro tree
  have begun := first tree
  simp only [after, MonadExcept.tryCatch, tryCatchThe, MonadExceptOf.tryCatch, EStateM.tryCatch,
    EStateM.Backtrackable.restore, EStateM.dummyRestore] at begun ⊢
  cases result : action tree with
  | ok a between =>
    rw [result] at begun
    exact begun
  | error failure between =>
    rw [result] at begun
    exact begun.trans (last failure between)

theorem throw (failure : IoFailure) : Growing (throw failure : Files α) := Grows.refl

theorem get : Growing (get : Files FileTree) := Grows.refl

theorem makeDirectory (steps : List String) : Growing (makeDirectory steps) := by
  intro tree
  unfold after Files.makeDirectory
  simp only [Bind.bind, EStateM.bind, MonadState.get, getThe, MonadStateOf.get, EStateM.get]
  cases resolved : tree.resolve steps with
  | error failure => exact .refl tree
  | ok place =>
    cases found : tree.get? place with
    | some node =>
      simp only [EStateM.bind, EStateM.get, found, Option.isSome_some, if_true]
      exact .refl tree
    | none =>
      simp only [EStateM.bind, EStateM.get, found, Option.isSome_none, Bool.false_eq_true, if_false]
      exact .put found

theorem ensureDirectory (steps : List String) : Growing (ensureDirectory steps) := by
  refine (makeDirectory steps).tryCatch fun failure => get.bind fun tree => ?_
  split
  next =>
    split
    next => exact throw failure
    next => exact pure ()
  next => exact throw failure

theorem makeSteps (steps : List String) : Growing (makeSteps steps) := by
  induction steps with
  | nil => exact pure ()
  | cons last above ih =>
    refine (ensureDirectory _).tryCatch fun failure => ?_
    split
    next => exact ih.bind fun _ => ensureDirectory _
    next => exact throw failure

theorem makePath (path : Path) : Growing (makePath path) := makeSteps _

end Growing

/-- A directory that is there already is left as it is. -/
theorem makePath_there {dir : Path} {tree : FileTree} {place : Place}
    (led : tree.resolve (Path.steps dir) = .ok place)
    (opened : tree.get? place = some .directory) : makePath dir tree = .ok () tree := by
  have ensured : ensureDirectory (Path.steps dir) tree = .ok () tree := by
    simp only [ensureDirectory, makeDirectory, tryCatch, tryCatchThe, MonadExceptOf.tryCatch,
      EStateM.tryCatch, bind, EStateM.bind, MonadState.get, getThe, MonadStateOf.get, EStateM.get,
      led, opened, Option.isSome_some, if_true, throw, throwThe, MonadExceptOf.throw, EStateM.throw,
      EStateM.Backtrackable.restore, EStateM.dummyRestore]
    rfl
  unfold makePath
  cases steps : (Path.steps dir).reverse with
  | nil => rfl
  | cons last above =>
    have whole : (last :: above).reverse = Path.steps dir := by rw [← steps, List.reverse_reverse]
    simp only [makeSteps, whole, tryCatch, tryCatchThe, MonadExceptOf.tryCatch, EStateM.tryCatch,
      ensured]

theorem locate_eq (path : Path) (tree : FileTree) :
    locate path tree = match tree.locate path with
      | .ok place => .ok place tree
      | .error failure => .error failure tree := by
  unfold locate
  simp only [bind, EStateM.bind, get, getThe, MonadStateOf.get, EStateM.get]
  cases tree.locate path with
  | ok _ => rfl
  | error _ => rfl

theorem read_eq (path : Path) (tree : FileTree) :
    read path tree = match tree.locate path with
      | .error failure => .error failure tree
      | .ok place => match tree.get? place with
        | some (.file content) => .ok content tree
        | some .directory => .error .isADirectory tree
        | none => .error .notFound tree := by
  unfold read
  simp only [bind, EStateM.bind, locate_eq]
  cases tree.locate path with
  | error failure => rfl
  | ok place =>
    simp only [get, getThe, MonadStateOf.get, EStateM.get]
    split
    next found => rw [found]; rfl
    next found => rw [found]; rfl
    next found => rw [found]; rfl

theorem read_ok_iff {path : Path} {tree left : FileTree} {content : Bytes} :
    read path tree = .ok content left ↔ tree.node? path = some (.file content) ∧ left = tree := by
  rw [read_eq, FileTree.node?]
  cases tree.locate path with
  | error failure => simp
  | ok place =>
    simp only
    cases tree.get? place with
    | none => simp
    | some node => cases node <;> simp [eq_comm]

theorem write_eq (path : Path) (content : Bytes) (tree : FileTree) :
    write path content tree = match tree.locate path with
      | .error failure => .error failure tree
      | .ok place =>
        if tree.get? place = some .directory then .error .isADirectory tree
        else .ok () (tree.put place (.file content)) := by
  unfold write
  simp only [bind, EStateM.bind, locate_eq]
  cases tree.locate path with
  | error failure => rfl
  | ok place =>
    simp only [get, getThe, MonadStateOf.get, EStateM.get]
    cases tree.get? place with
    | none => rfl
    | some node =>
      cases node with
      | file _ => rfl
      | directory => rfl

theorem write_free {path : Path} {tree : FileTree} {place : Place} (content : Bytes)
    (located : tree.locate path = .ok place) (free : tree.get? place ≠ some .directory) :
    write path content tree = .ok () (tree.put place (.file content)) := by
  rw [write_eq, located]
  simp only [if_neg free]

/-- A write that succeeds puts a file where no directory is. -/
theorem write_ok {path : Path} {content : Bytes} {tree after : FileTree}
    (ran : write path content tree = .ok () after) :
    ∃ place, tree.locate path = .ok place ∧ tree.get? place ≠ some .directory ∧
      after = tree.put place (.file content) := by
  rw [write_eq] at ran
  split at ran
  next => cases ran
  next place located =>
    split at ran
    next => cases ran
    next free => cases ran; exact ⟨place, located, free, rfl⟩

theorem here_write {path : Path} {content : Bytes} {tree after : FileTree}
    (ran : write path content tree = .ok () after) : after.here = tree.here := by
  obtain ⟨place, _, _, rfl⟩ := write_ok ran
  exact here_put tree place _

theorem node?_write {path : Path} {content : Bytes} {tree after : FileTree}
    (ran : write path content tree = .ok () after) : after.node? path = some (.file content) := by
  obtain ⟨place, located, free, rfl⟩ := write_ok ran
  exact node?_put content located free

/-- A write that fails changes nothing. -/
theorem write_error {path : Path} {content : Bytes} {tree after : FileTree} {failure : IoFailure}
    (ran : write path content tree = .error failure after) : after = tree := by
  rw [write_eq] at ran
  split at ran
  next => cases ran; rfl
  next =>
    split at ran
    next => cases ran; rfl
    next => cases ran

theorem copy_eq (source goal : Path) (tree : FileTree) :
    copy source goal tree = match tree.locate source with
      | .error failure => .error failure tree
      | .ok place => match tree.get? place with
        | none => .error .notFound tree
        | some .directory => .error .invalidInput tree
        | some (.file content) => match tree.locate goal with
          | .error failure => .error failure tree
          | .ok there => write goal (if place = there then [] else content) tree := by
  unfold copy
  simp only [bind, EStateM.bind, locate_eq]
  cases tree.locate source with
  | error failure => rfl
  | ok place =>
    simp only [get, getThe, MonadStateOf.get, EStateM.get]
    split
    next found => rw [found]; rfl
    next found => rw [found]; rfl
    next content found =>
      rw [found]
      simp only [EStateM.bind, locate_eq]
      cases tree.locate goal with
      | error failure => rfl
      | ok there => rfl

theorem copy_apart {source goal : Path} {tree : FileTree} {place there : Place} {content : Bytes}
    (located : tree.locate source = .ok place) (found : tree.get? place = some (.file content))
    (reached : tree.locate goal = .ok there) (free : tree.get? there ≠ some .directory)
    (apart : place ≠ there) :
    copy source goal tree = .ok () (tree.put there (.file content)) := by
  rw [copy_eq, located]
  simp only [found, reached, if_neg apart]
  exact write_free content reached free

/-- A copy to another place that succeeds puts a file with the same content there. -/
theorem copy_ok {source goal : Path} {tree after : FileTree}
    (ran : copy source goal tree = .ok () after) :
    ∃ place there content, tree.locate source = .ok place ∧
      tree.get? place = some (.file content) ∧ tree.locate goal = .ok there ∧
      tree.get? there ≠ some .directory ∧
      after = tree.put there (.file (if place = there then [] else content)) := by
  rw [copy_eq] at ran
  split at ran
  next => cases ran
  next place located =>
    split at ran
    next => cases ran
    next => cases ran
    next content found =>
      split at ran
      next => cases ran
      next there reached =>
        obtain ⟨again, same, free, put⟩ := write_ok ran
        cases reached.symm.trans same
        exact ⟨place, there, content, located, found, reached, free, put⟩

theorem copy_error {source goal : Path} {tree after : FileTree} {failure : IoFailure}
    (ran : copy source goal tree = .error failure after) : after = tree := by
  rw [copy_eq] at ran
  split at ran
  next => cases ran; rfl
  next =>
    split at ran
    next => cases ran; rfl
    next => cases ran; rfl
    next =>
      split at ran
      next => cases ran; rfl
      next => exact write_error ran

end Files

end ImageDerivative
