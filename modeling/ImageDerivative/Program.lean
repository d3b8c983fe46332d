import ImageDerivative.Codec.FileBackend
import ImageDerivative.CommandLine.Request
import ImageDerivative.Config.Stock
import ImageDerivative.Report

/-! Whole runs of the program over a tree of files: from the arguments to what is
printed, how the run ends, and the files it leaves behind. -/
namespace ImageDerivative

inductive ProgramError where
  | arguments (error : CommandLine.ArgumentError)
  | config (error : ConfigError)
  | backend (error : BackendError)
  | metadata (error : MetadataError)
  /-- The file whose metadata was asked for cannot be read. -/
  | unreadable (failure : IoFailure)
  /-- A file operation around the cache failed. -/
  | files (failure : IoFailure)

def ProgramError.message : ProgramError → String
  | arguments error => error.message
  | config error => error.message
  | backend error => error.message
  | metadata error => error.message
  | unreadable failure => "IO error: " ++ failure.kind
  | files failure => "IO error: " ++ failure.kind

/-- Part of a run. What it has done to the files before it fails stays done. -/
abbrev Program := EStateM ProgramError FileTree

namespace Program

def ofExcept {ε α : Type} (wrap : ε → ProgramError) : Except ε α → Program α
  | .ok a => return a
  | .error e => throw (wrap e)

/-- An operation on the files whose failure counts as `wrap` says. -/
def onFiles {ε α : Type} (wrap : ε → ProgramError) (action : EStateM ε FileTree α) : Program α :=
  fun tree =>
    match action tree with
    | .ok a tree => .ok a tree
    | .error e tree => .error (wrap e) tree

/-- A task of a cache, and the cache as the task leaves it. -/
def onCache {α : Type} (cache : Cache) (task : Cache.Task α) : Program (α × Cache) := fun tree =>
  match task { files := tree, cache } with
  | .ok a session => .ok (a, session.cache) session.files
  | .error failure session => .error (.files failure) session.files

variable (codecs : Codecs) (pool : WorkerPool)

def render (recipe : Recipe) : Program Derivative :=
  onFiles .backend (derive (fileBackend codecs) recipe pool)

/-- Serves a derivative from the cache, or makes it and puts it there. -/
def renderCached (recipe : Recipe) (dir : Path) : Program (Report.Outcome × CacheStats) := do
  let cache ← onFiles .files (Cache.open dir)
  let sourceHash ← onFiles .files (hashFile recipe.source)
  let (hit, cache) ← onCache cache (Cache.restore sourceHash recipe.hash recipe.output)
  match hit with
  | some hit => return (.cached hit.size, cache.stats)
  | none =>
    let derivative ← render codecs pool recipe
    let (_, cache) ←
      onCache cache (Cache.store sourceHash recipe.hash recipe.output derivative.size)
    return (.rendered derivative, cache.stats)

/-- Scales, through the cache unless it is off. -/
def scale (arguments : CommandLine.ScaleArguments) (config : Config) :
    Program (Report.Outcome × Option CacheStats) := do
  let recipe ← ofExcept .arguments (arguments.recipe config)
  if !config.cacheEnabled || arguments.noCache then
    return (.rendered (← render codecs pool recipe), none)
  else
    let (outcome, stats) ← renderCached codecs pool recipe config.cacheDirectory
    return (outcome, some stats)

def scaleLines (arguments : CommandLine.ScaleArguments) (config : Config) :
    Program (List String) := do
  let (outcome, stats) ← scale codecs pool arguments config
  return Report.scaleLines arguments.input arguments.output outcome ++
    (stats.map Report.cacheLine).toList

def infoLines (input : Path) (json : Bool) : Program (List String) := do
  let data ← onFiles .unreadable (Files.read input)
  let info ← ofExcept .metadata (ImageInfo.ofFile codecs.probe input data)
  return if json then [info.toJson.pretty] else Report.infoLines input info

/-- The text that lines make, each closed by a line feed. -/
def textOfLines (lines : List String) : String := String.join (lines.map fun line => line ++ "\n")

def poolFor (config : Config) (cores : Nat) : WorkerPool := .ofSize (config.effectiveThreads cores)

/-- What a run prints. The stock configuration is printed without looking for
another one. -/
def perform (cores : Nat) (invocation : CommandLine.Invocation) : Program String := do
  match invocation.command with
  | .genConfig => return Config.stockText
  | command =>
    let config ← ofExcept .config (Config.load (← get) invocation.config)
    match command with
    | .scale arguments =>
      return textOfLines (← scaleLines codecs (poolFor config cores) arguments config)
    | .info input json => return textOfLines (← infoLines codecs input json)
    | .filters => return textOfLines Report.kernelLines
    | .genConfig => return Config.stockText

def name : String := "iiif-raster"

def version : String := "0.4.0"

def helpLines : List String := [
  "Scale images and read chunked-format metadata",
  "",
  "Usage: " ++ name ++ " [OPTIONS] <COMMAND>",
  "",
  "Commands: " ++ String.intercalate ", " (CommandLine.entries.map CommandLine.Entry.name)]

inductive Ending where
  | printed (text : String)
  | stopped (stop : CommandLine.Stop)
  | failed (error : ProgramError)

namespace Ending

def exitCode : Ending → Nat
  | printed _ | stopped .help | stopped .version => 0
  | failed (.backend (.panicked _)) => 101
  | failed _ => 1
  | stopped .usage => 2

def output : Ending → String
  | printed text => text
  | stopped .help => textOfLines helpLines
  | stopped .version => name ++ " " ++ version ++ "\n"
  | stopped .usage | failed _ => ""

def complaint : Ending → String
  | failed (.backend (.panicked panic)) => (BackendError.panicked panic).message ++ "\n"
  | failed error => "Error: " ++ error.message ++ "\n"
  | stopped .usage => textOfLines helpLines
  | _ => ""

end Ending

def run (cores : Nat) (arguments : List String) (tree : FileTree) : Ending × FileTree :=
  match CommandLine.parse arguments with
  | .error stop => (.stopped stop, tree)
  | .ok invocation =>
    match perform codecs cores invocation tree with
    | .ok text tree => (.printed text, tree)
    | .error error tree => (.failed error, tree)

end Program

end ImageDerivative
