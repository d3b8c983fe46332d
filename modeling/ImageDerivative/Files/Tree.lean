import ImageDerivative.Bytes
import ImageDerivative.Files.Path

/-! A tree of files and directories, and what the operations on it do and refuse.
A place in the tree is the list of names that lead to it from the root; the root
is a directory. Relative paths start at the working directory. -/
namespace ImageDerivative

inductive IoFailure where
  | notFound
  | notADirectory
  | isADirectory
  | alreadyExists
  | invalidInput
  | invalidData
  | unexpectedEof
  deriving DecidableEq, Repr

def IoFailure.kind : IoFailure → String
  | notFound => "NotFound"
  | notADirectory => "NotADirectory"
  | isADirectory => "IsADirectory"
  | alreadyExists => "AlreadyExists"
  | invalidInput => "InvalidInput"
  | invalidData => "InvalidData"
  | unexpectedEof => "UnexpectedEof"

inductive Node where
  | file (content : Bytes)
  | directory
  deriving DecidableEq, Repr

abbrev Place := List String

structure FileTree where
  nodes : List (Place × Node) := []
  /-- The working directory. -/
  here : Place := []
  deriving DecidableEq, Repr

namespace FileTree

def get? (tree : FileTree) (place : Place) : Option Node :=
  if place = [] then some .directory
  else (tree.nodes.find? fun entry => entry.1 = place).map Prod.snd

def put (tree : FileTree) (place : Place) (node : Node) : FileTree :=
  if (tree.get? place).isSome then { tree with
    nodes := tree.nodes.map fun entry => if entry.1 = place then (place, node) else entry }
  else { tree with nodes := tree.nodes ++ [(place, node)] }

def erase (tree : FileTree) (place : Place) : FileTree :=
  { tree with nodes := tree.nodes.filter fun entry => entry.1 ≠ place }

def children (tree : FileTree) (place : Place) : List String :=
  tree.nodes.filterMap fun entry =>
    match entry.1.reverse with
    | name :: parent => if parent.reverse = place then some name else none
    | [] => none

/-- `place` has to be a directory for a path to go on behind it. -/
def enter (tree : FileTree) (place : Place) : Except IoFailure Unit :=
  match tree.get? place with
  | some .directory => .ok ()
  | some (.file _) => .error .notADirectory
  | none => .error .notFound

/-- Follows the pieces of a path from a directory. The last name need not exist;
a path that ends in a slash or a dot has to lead to a directory. -/
def follow (tree : FileTree) : (place : Place) → List String → Except IoFailure Place
  | place, [] => .ok place
  | place, piece :: rest => do
    tree.enter place
    if piece = "" ∨ piece = "." then tree.follow place rest
    else if piece = ".." then tree.follow place.dropLast rest
    else tree.follow (place ++ [piece]) rest

/-- The place that the pieces of a path lead to. An empty first piece stands for
the root. -/
def resolve (tree : FileTree) (pieces : List String) : Except IoFailure Place :=
  tree.follow (if pieces.head? = some "" then [] else tree.here) pieces

def locate (tree : FileTree) (path : Path) : Except IoFailure Place :=
  if path.isEmpty then .error .notFound else tree.resolve (Path.pieces path)

def node? (tree : FileTree) (path : Path) : Option Node :=
  match tree.locate path with
  | .ok place => tree.get? place
  | .error _ => none

def exists? (tree : FileTree) (path : Path) : Bool := (tree.node? path).isSome

def isDirectory (tree : FileTree) (path : Path) : Bool := tree.node? path = some .directory

end FileTree

/-- An operation on the tree. What it has done before it fails stays done. -/
abbrev Files := EStateM IoFailure FileTree

namespace Files

def locate (path : Path) : Files Place := do
  match (← get).locate path with
  | .ok place => return place
  | .error failure => throw failure

def read (path : Path) : Files Bytes := do
  let place ← locate path
  match (← get).get? place with
  | some (.file content) => return content
  | some .directory => throw .isADirectory
  | none => throw .notFound

/-- Writes a file, new or not, into a directory that exists. -/
def write (path : Path) (content : Bytes) : Files Unit := do
  let place ← locate path
  match (← get).get? place with
  | some .directory => throw .isADirectory
  | _ => modify fun tree => tree.put place (.file content)

/-- Copies a file. Opening the target empties it, so that a file copied onto
itself is lost. -/
def copy (source target : Path) : Files Unit := do
  let sourcePlace ← locate source
  match (← get).get? sourcePlace with
  | none => throw .notFound
  | some .directory => throw .invalidInput
  | some (.file content) =>
    let targetPlace ← locate target
    write target (if sourcePlace = targetPlace then [] else content)

def remove (path : Path) : Files Unit := do
  let place ← locate path
  match (← get).get? place with
  | some (.file _) => modify fun tree => tree.erase place
  | some .directory => throw .isADirectory
  | none => throw .notFound

def makeDirectory (steps : List String) : Files Unit := do
  match (← get).resolve steps with
  | .error failure => throw failure
  | .ok place =>
    if ((← get).get? place).isSome then throw .alreadyExists
    modify fun tree => tree.put place .directory

/-- Makes one directory, which may be there already. -/
def ensureDirectory (steps : List String) : Files Unit := do
  try makeDirectory steps
  catch failure =>
    let tree ← get
    match tree.resolve steps with
    | .ok place => if tree.get? place ≠ some .directory then throw failure
    | .error _ => throw failure

/-- Makes a directory, whose steps are given from the last to the first, and those
above it where they are missing. -/
def makeSteps : List String → Files Unit
  | [] => return
  | last :: above => do
    let steps := (last :: above).reverse
    try ensureDirectory steps
    catch failure =>
      if failure = .notFound then
        makeSteps above
        ensureDirectory steps
      else throw failure

def makePath (path : Path) : Files Unit := makeSteps (Path.steps path).reverse

end Files

end ImageDerivative
