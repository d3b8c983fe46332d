import Mathlib
import ImageDerivative.Files.Tree

/-! Where paths lead. As there are no links, the place of a path can be told from its
pieces alone; the tree only decides whether the way there is open. -/
namespace ImageDerivative

namespace Path

theorem pieces_eq (path : Path) : pieces path = (path.toList.splitOn '/').map String.ofList := by
  rw [pieces, ← String.toList_split_char]
  rfl

theorem pieces_of_not_mem {name : String} (whole : '/' ∉ name.toList) : pieces name = [name] := by
  rw [pieces_eq, List.splitOn_eq_singleton whole, List.map_singleton, String.ofList_toList]

theorem isAbsolute_iff (path : Path) : isAbsolute path = true ↔ path.toList.head? = some '/' := by
  rw [isAbsolute, String.startsWith_string_iff]
  cases path.toList with
  | nil => simp
  | cons c cs =>
    rw [List.head?_cons, Option.some.injEq]
    exact ⟨fun begins => (List.cons_prefix_cons.mp begins).1.symm,
      fun same => List.cons_prefix_cons.mpr ⟨same.symm, List.nil_prefix⟩⟩

/-- An empty first piece stands for the root. -/
theorem head?_pieces {path : Path} (some : path ≠ "") :
    (pieces path).head? = .some "" ↔ isAbsolute path = true := by
  rw [pieces_eq, isAbsolute_iff]
  cases given : path.toList with
  | nil => exact absurd (String.toList_eq_nil_iff.mp given) some
  | cons c cs =>
    rw [List.splitOn_cons_eq_if_modifyHead]
    cases rest : cs.splitOn '/' with
    | nil => exact absurd rest (List.splitOn_ne_nil _ _)
    | cons first others =>
      by_cases slash : c = '/'
      · simp [slash]
      · simp [slash]

theorem components_ne_nil {path : Path} (some : path ≠ "") : components path ≠ [] := by
  have rooted := head?_pieces some
  unfold components
  cases given : pieces path with
  | nil =>
    rw [pieces_eq, List.map_eq_nil_iff] at given
    exact absurd given (List.splitOn_ne_nil _ _)
  | cons piece rest =>
    rw [given, List.head?_cons, Option.some.injEq] at rooted
    simp only [List.head?_cons, Option.some.injEq, List.filterMap_cons]
    by_cases absolute : isAbsolute path = true
    · rw [if_pos absolute]
      exact List.cons_ne_nil _ _
    · rw [if_neg absolute]
      by_cases dot : piece = "."
      · rw [if_pos dot]
        exact List.cons_ne_nil _ _
      · have loud : ¬ (piece = "" ∨ piece = ".") := not_or.mpr ⟨absolute ∘ rooted.mp, dot⟩
        rw [if_neg dot, if_neg loud]
        split
        next none => split at none <;> contradiction
        next => exact List.cons_ne_nil _ _

theorem components_empty : components "" = [] := by
  have relative : ¬ isAbsolute "" = true := fun absolute =>
    absurd ((isAbsolute_iff "").mp absolute) (by simp)
  have single : pieces "" = [""] := pieces_of_not_mem (by simp)
  unfold components
  rw [single, if_neg relative]
  rfl

theorem join_ne_empty (dir : Path) {name : String} (some : name ≠ "") : join dir name ≠ "" := by
  have nonempty : ∀ front : String, front ++ name ≠ "" := fun front same =>
    some (String.append_eq_empty_iff.mp same).2
  unfold join
  split
  next => exact some
  next =>
    split
    next => exact nonempty dir
    next => exact nonempty (dir ++ "/")

/-- The pieces that stand before a name inside a directory. -/
def folder (dir : Path) : List String :=
  if dir.isEmpty then []
  else if dir.endsWith "/" then (pieces dir).dropLast
  else pieces dir

theorem pieces_join (dir : Path) {name : String} (relative : isAbsolute name = false) :
    pieces (join dir name) = folder dir ++ pieces name := by
  have behind (cs : List Char) : ((cs ++ '/' :: name.toList).splitOn '/').map String.ofList =
      (cs.splitOn '/').map String.ofList ++ pieces name := by
    rw [List.splitOn_append_cons_self, List.map_append, pieces_eq]
  unfold join folder
  rw [relative, Bool.false_or]
  by_cases empty : dir.isEmpty
  · rw [if_pos empty, if_pos empty, List.nil_append]
  · rw [if_neg empty, if_neg empty]
    by_cases slash : dir.endsWith "/"
    · have suffix : "/".toList <:+ dir.toSlice.copy.toList :=
        String.Slice.endsWith_string_iff.mp slash
      obtain ⟨cs, ends⟩ := suffix
      rw [String.copy_toSlice] at ends
      have joined : (dir ++ name).toList = cs ++ '/' :: name.toList := by
        rw [String.toList_append, ← ends, List.append_assoc]
        rfl
      have spelled : dir.toList.splitOn '/' = cs.splitOn '/' ++ [[]] := by
        rw [← ends]
        exact List.splitOn_append_cons_self cs []
      rw [if_pos slash, if_pos slash, pieces_eq (dir ++ name), pieces_eq dir, joined, behind,
        spelled, List.map_append, List.map_singleton, List.dropLast_concat]
    · have joined : (dir ++ "/" ++ name).toList = dir.toList ++ '/' :: name.toList := by
        simp only [String.toList_append, List.append_assoc]
        rfl
      rw [if_neg slash, if_neg slash, pieces_eq (dir ++ "/" ++ name), pieces_eq dir, joined, behind]

end Path

namespace FileTree

/-- Where pieces lead from a place. -/
def walk : Place → List String → Place
  | place, [] => place
  | place, piece :: rest =>
    if piece = "" ∨ piece = "." then walk place rest
    else if piece = ".." then walk place.dropLast rest
    else walk (place ++ [piece]) rest

def target (here : Place) (pieces : List String) : Place :=
  walk (if pieces.head? = some "" then [] else here) pieces

theorem follow_ok {tree : FileTree} {place goal : Place} {pieces : List String}
    (found : tree.follow place pieces = .ok goal) : goal = walk place pieces := by
  induction pieces generalizing place with
  | nil =>
    cases found
    rfl
  | cons piece rest ih =>
    simp only [follow, bind, Except.bind] at found
    rw [walk]
    split at found
    next => contradiction
    next =>
      split at found
      next silent => rw [if_pos silent, ih found]
      next loud =>
        rw [if_neg loud]
        split at found
        next up => rw [if_pos up, ih found]
        next down => rw [if_neg down, ih found]

theorem resolve_ok {tree : FileTree} {pieces : List String} {goal : Place}
    (found : tree.resolve pieces = .ok goal) : goal = target tree.here pieces := follow_ok found

theorem locate_ok {tree : FileTree} {path : Path} {goal : Place}
    (found : tree.locate path = .ok goal) : goal = target tree.here (Path.pieces path) := by
  unfold locate at found
  split at found
  next => contradiction
  next => exact resolve_ok found

theorem walk_append (place : Place) (first last : List String) :
    walk place (first ++ last) = walk (walk place first) last := by
  induction first generalizing place with
  | nil => rfl
  | cons piece rest ih =>
    simp only [List.cons_append, walk]
    split
    next => exact ih _
    next =>
      split
      next => exact ih _
      next => exact ih _

/-- The place of a directory that paths go on behind. -/
def directory (here : Place) (dir : Path) : Place := target here (Path.folder dir)

/-- A name leads on from the place of the directory, unless it is an absolute path. -/
theorem target_join (here : Place) (dir : Path) {name : String} (some : name ≠ "") :
    target here (Path.pieces (Path.join dir name)) =
      target (directory here dir) (Path.pieces name) := by
  cases absolute : Path.isAbsolute name with
  | true =>
    have rooted := (Path.head?_pieces some).mpr absolute
    have joined : Path.join dir name = name := by
      unfold Path.join
      rw [absolute, Bool.true_or, if_pos rfl]
    rw [joined, target, target, if_pos rooted, if_pos rooted]
  | false =>
    have relative : (Path.pieces name).head? ≠ .some "" := fun rooted => by
      rw [(Path.head?_pieces some).mp rooted] at absolute
      contradiction
    rw [Path.pieces_join dir absolute, directory, target, target, target, if_neg relative,
      walk_append]
    cases before : Path.folder dir with
    | nil =>
      rw [List.nil_append, if_neg relative]
      rfl
    | cons piece rest => rfl

theorem target_of_not_mem (place : Place) {name : String} (whole : '/' ∉ name.toList)
    (named : name ≠ "" ∧ name ≠ "." ∧ name ≠ "..") :
    target place (Path.pieces name) = place ++ [name] := by
  obtain ⟨some, single, double⟩ := named
  have silent : ¬ (name = "" ∨ name = ".") := not_or.mpr ⟨some, single⟩
  have relative : [name].head? ≠ .some "" := fun same => some (Option.some.inj same)
  rw [Path.pieces_of_not_mem whole, target, if_neg relative, walk, if_neg silent, if_neg double]
  rfl

def enterComponent (place : Place) : Path.Component → Place
  | .root => []
  | .current => place
  | .parent => place.dropLast
  | .name text => place ++ [text]

theorem walk_eq_foldl (place : Place) (pieces : List String) :
    walk place pieces = (pieces.filterMap fun piece =>
      if piece = "" ∨ piece = "." then none
      else if piece = ".." then some Path.Component.parent
      else some (.name piece)).foldl enterComponent place := by
  induction pieces generalizing place with
  | nil => rfl
  | cons piece rest ih =>
    rw [walk, List.filterMap_cons]
    by_cases silent : piece = "" ∨ piece = "."
    · rw [if_pos silent, if_pos silent]
      exact ih _
    · rw [if_neg silent, if_neg silent]
      by_cases up : piece = ".."
      · rw [if_pos up, if_pos up]
        exact ih _
      · rw [if_neg up, if_neg up]
        exact ih _

/-- The place of a path depends on its components only. -/
theorem target_eq_foldl (here : Place) {path : Path} (some : path ≠ "") :
    target here (Path.pieces path) = (Path.components path).foldl enterComponent here := by
  have absolute := Path.head?_pieces some
  unfold target Path.components
  simp only [walk_eq_foldl]
  by_cases rooted : Path.isAbsolute path = true
  · rw [if_pos (absolute.mpr rooted), if_pos rooted]
    rfl
  · rw [if_neg fun head => rooted (absolute.mp head), if_neg rooted]
    split <;> rfl

/-- Two spellings of one path lead to one place. -/
theorem target_eq_of_same (here : Place) {a b : Path} (some : a ≠ "") (same : Path.same a b) :
    target here (Path.pieces a) = target here (Path.pieces b) := by
  have equal : Path.components a = Path.components b := of_decide_eq_true same
  have other : b ≠ "" := by
    rintro rfl
    exact Path.components_ne_nil some (equal.trans Path.components_empty)
  rw [target_eq_foldl here some, target_eq_foldl here other, equal]

end FileTree

end ImageDerivative
