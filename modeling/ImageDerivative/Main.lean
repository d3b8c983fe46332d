import ImageDerivative.Program

/-! The program on the files of the machine. What a run may look at is loaded into a
tree; what the run has changed in it is written back. -/
namespace ImageDerivative.Disk

/-- The place that a path leads to from the directory `here`. -/
def placeOf (here : Place) (path : Path) : Place :=
  (Path.pieces path).foldl (fun place piece =>
    if piece = "" ∨ piece = "." then place
    else if piece = ".." then place.dropLast
    else place ++ [piece]) (if Path.isAbsolute path then [] else here)

def pathOf (place : Place) : Path := "/" ++ String.intercalate "/" place

/-- What stands at a place whose parent is a directory. -/
def readNode (place : Place) : IO (Option Node) := do
  try
    let content ← IO.FS.readBinFile (pathOf place)
    return some (.file content.data.toList)
  catch
    | .noFileOrDirectory .. => return none
    | .inappropriateType .. => return some .directory
    | error => throw error

/-- Loads what stands along the way from `above`. -/
def loadSteps (tree : FileTree) (above : Place) : List String → IO FileTree
  | [] => return tree
  | name :: rest => do
    let place := above ++ [name]
    match tree.get? place with
    | some .directory => loadSteps tree place rest
    | some (.file _) => return tree
    | none =>
      match ← readNode place with
      | some node => loadSteps (tree.put place node) place rest
      | none => return tree

def load (tree : FileTree) (path : Path) : IO FileTree :=
  loadSteps tree [] (placeOf tree.here path)

def loadCache (tree : FileTree) (dir : Path) : IO FileTree := do
  let tree ← load tree (Manifest.path dir)
  let names := (Manifest.load tree dir).entries.map Prod.fst
  names.foldlM (fun tree name => load tree (Path.join dir name)) tree

def loadFor (tree : FileTree) (invocation : CommandLine.Invocation) : IO FileTree := do
  let tree ← load tree (invocation.config.getD Config.defaultFile)
  match invocation.command with
  | .info input _ => load tree input
  | .scale arguments =>
    let tree ← load (← load tree arguments.input) arguments.output
    match Config.load tree invocation.config with
    | .ok config => loadCache tree config.cacheDirectory
    | .error _ => return tree
  | .filters | .genConfig => return tree

def writeNode (place : Place) : Node → IO Unit
  | .file content => IO.FS.writeBinFile (pathOf place) ⟨content.toArray⟩
  | .directory => IO.FS.createDirAll (pathOf place)

/-- Writes what differs from the tree before. -/
def save (before after : FileTree) : IO Unit :=
  after.nodes.forM fun (place, node) =>
    if before.get? place = some node then pure () else writeNode place node

end ImageDerivative.Disk

open ImageDerivative

/-- Workers do not run side by side. -/
def cores : Nat := 1

def main (arguments : List String) : IO UInt32 := do
  let start : FileTree := { here := Disk.placeOf [] (toString (← IO.currentDir)) }
  let before ← match CommandLine.parse arguments with
    | .ok invocation => Disk.loadFor start invocation
    | .error _ => pure start
  let (ending, after) := Program.run .standard cores arguments before
  Disk.save before after
  IO.print ending.output
  IO.eprint ending.complaint
  return UInt32.ofNat ending.exitCode
