import ImageDerivative.Files.Tree
import ImageDerivative.Imaging.Recipe
import ImageDerivative.Precision
import ImageDerivative.Text.Utf8
import ImageDerivative.Toml.Document

/-! The configuration: what it holds, what it may hold, and how it comes about. A
file lies over the stock defaults; the result is decoded, where unknown keys are
refused and missing ones take their defaults, and then validated. -/
namespace ImageDerivative

structure Config where
  /-- The greatest number of worker threads; as many as there are cores if absent. -/
  maxThreads : Option Nat := none
  policy : KernelPolicy := {}
  linear : Bool := false
  sharpen : Float32 := 0.0
  quality : Nat := Quality.standard.value
  cacheEnabled : Bool := true
  cacheDirectory : Path := ".iiif-cache"
  logLevel : String := "info"

inductive Invalid where
  | maxThreads
  | quality
  | sharpen
  | cacheDirectory
  | logLevel
  deriving DecidableEq, Repr

inductive ConfigError where
  | io (failure : IoFailure)
  /-- The file is no TOML, or its values do not fit the settings. -/
  | toml
  | validation (invalid : Invalid)
  deriving DecidableEq, Repr

namespace Config

/-- The file that is used if it exists and no other one is named. -/
def defaultFile : Path := "iiif-raster.toml"

def maxSharpen : Float32 := 10.0

def logLevels : List String := ["trace", "debug", "info", "warn", "error", "off"]

def withinSharpen (amount : Float32) : Bool :=
  amount.isFinite && 0.0 ≤ amount && amount ≤ maxSharpen

/-- The first setting that is out of range. -/
def firstInvalid? (config : Config) : Option Invalid :=
  if config.maxThreads = some 0 then some .maxThreads
  else if config.quality < 1 ∨ config.quality > 100 then some .quality
  else if !withinSharpen config.sharpen then some .sharpen
  else if config.cacheEnabled && config.cacheDirectory.isEmpty then some .cacheDirectory
  else if !logLevels.contains config.logLevel.toLower then some .logLevel
  else none

def validate (config : Config) : Except ConfigError Config :=
  match config.firstInvalid? with
  | some invalid => .error (.validation invalid)
  | none => .ok config

end Config

def Invalid.message : Invalid → String
  | maxThreads => "processing.max_threads must be at least 1"
  | quality => "scale.quality must be 1-100"
  | sharpen => "scale.sharpen must be between 0 and 10"
  | cacheDirectory => "cache.directory must not be empty when the cache is enabled"
  | logLevel => "log.level must be one of " ++ String.intercalate ", " Config.logLevels

def ConfigError.message : ConfigError → String
  | io failure => "IO error: " ++ failure.kind
  | toml => "TOML parse error"
  | validation invalid => "Config validation error: " ++ invalid.message

/-- Puts a value into a field of an `α`, if the value is of the field's kind. -/
structure Setting (α : Type) where
  name : String
  put? : α → TomlValue → Option α

namespace Setting

variable {α : Type}

/-- Values for the settings in their order. There may be fewer, but not more. -/
def ofItems : (settings : List (Setting α)) → List TomlValue → α → Option α
  | _, [], a => some a
  | [], _ :: _, _ => none
  | setting :: settings, value :: values, a => do
    ofItems settings values (← setting.put? a value)

/-- Values by name. Every name has to be one of the settings. -/
def ofFields (settings : List (Setting α)) : List (String × TomlValue) → α → Option α
  | [], a => some a
  | (key, value) :: rest, a => do
    let setting ← settings.find? fun setting => setting.name = key
    ofFields settings rest (← setting.put? a value)

/-- A group of settings is written as a table, or as an array of their values. -/
def decode (settings : List (Setting α)) (value : TomlValue) (a : α) : Option α :=
  match value with
  | .table fields => ofFields settings fields a
  | .array items => ofItems settings items a
  | _ => none

end Setting

namespace Config

def natural? (limit : Nat) : TomlValue → Option Nat
  | .integer n => if 0 ≤ n ∧ n < limit then some n.toNat else none
  | _ => none

/-- A float is rounded; an integer counts as the nearest number. -/
def single? : TomlValue → Option Float32
  | .float x => some (Precision.narrow x)
  | .integer n => some (Int64.ofInt n).toFloat32
  | _ => none

def boolean? : TomlValue → Option Bool
  | .boolean b => some b
  | _ => none

/-- A datetime counts as its text. -/
def text? : TomlValue → Option String
  | .string text | .datetime text => some text
  | _ => none

/-- A kernel is its name, or a table with its name as the only key and nothing under it. -/
def kernel? : TomlValue → Option Kernel
  | .string name => Kernel.ofName? name
  | .table [(name, .table [])] => Kernel.ofName? name
  | .table [(name, .array [])] => Kernel.ofName? name
  | _ => none

def processingSettings : List (Setting Config) := [
  ⟨"max_threads", fun c v =>
    return { c with maxThreads := some (← natural? 0x10000000000000000 v) }⟩]

def scaleSettings : List (Setting Config) := [
  ⟨"downscale_filter", fun c v => return { c with policy.downscale := ← kernel? v }⟩,
  ⟨"upscale_filter", fun c v => return { c with policy.upscale := ← kernel? v }⟩,
  ⟨"linear_output", fun c v => return { c with linear := ← boolean? v }⟩,
  ⟨"sharpen", fun c v => return { c with sharpen := ← single? v }⟩,
  ⟨"quality", fun c v => return { c with quality := ← natural? 0x100000000 v }⟩]

def cacheSettings : List (Setting Config) := [
  ⟨"enabled", fun c v => return { c with cacheEnabled := ← boolean? v }⟩,
  ⟨"directory", fun c v => return { c with cacheDirectory := ← text? v }⟩]

def logSettings : List (Setting Config) := [
  ⟨"level", fun c v => return { c with logLevel := ← text? v }⟩]

def groups : List (Setting Config) := [
  ⟨"processing", fun c v => Setting.decode processingSettings v c⟩,
  ⟨"scale", fun c v => Setting.decode scaleSettings v c⟩,
  ⟨"cache", fun c v => Setting.decode cacheSettings v c⟩,
  ⟨"log", fun c v => Setting.decode logSettings v c⟩]

def ofToml (value : TomlValue) : Except ConfigError Config :=
  match Setting.decode groups value {} with
  | some config => .ok config
  | none => .error .toml

/-- The value of a configuration; an absent setting is left out. -/
def toToml (config : Config) : TomlValue := .table [
  ("processing", .table (match config.maxThreads with
    | some n => [("max_threads", .integer n)]
    | none => [])),
  ("scale", .table [
    ("downscale_filter", .string config.policy.downscale.name),
    ("upscale_filter", .string config.policy.upscale.name),
    ("linear_output", .boolean config.linear),
    ("sharpen", .float (Precision.widen config.sharpen)),
    ("quality", .integer config.quality)]),
  ("cache", .table [
    ("enabled", .boolean config.cacheEnabled),
    ("directory", .string config.cacheDirectory)]),
  ("log", .table [("level", .string config.logLevel)])]

/-- The bottom layer of every configuration. -/
def stockDefaults : TomlValue := toToml {}

def resolve (base : TomlValue) (overlay : Option TomlValue) : Except ConfigError Config := do
  let merged := match overlay with
    | some overlay => base.merge overlay
    | none => base
  (← ofToml merged).validate

def effectiveQuality (config : Config) : Quality := .ofNat config.quality

def parseFile (content : Bytes) : Except ConfigError TomlValue :=
  match Utf8.decode? content with
  | none => .error (.io .invalidData)
  | some text =>
    match Toml.parse? text with
    | some value => .ok value
    | none => .error .toml

def readFile (tree : FileTree) (path : Path) : Except ConfigError TomlValue :=
  match Files.read path tree with
  | .error failure _ => .error (.io failure)
  | .ok content _ => parseFile content

def readFileIfAny (tree : FileTree) (path : Path) : Except ConfigError (Option TomlValue) :=
  if tree.exists? path then some <$> readFile tree path else .ok none

/-- The configuration from a file that is named, else from the default file if
there is one, else the stock defaults. -/
def load (tree : FileTree) (named : Option Path) : Except ConfigError Config := do
  let overlay ← match named with
    | some path => some <$> readFile tree path
    | none => readFileIfAny tree defaultFile
  resolve stockDefaults overlay

def effectiveThreads (config : Config) (cores : Nat) : Nat :=
  match config.maxThreads with
  | some n => min n cores
  | none => cores

end Config

end ImageDerivative
