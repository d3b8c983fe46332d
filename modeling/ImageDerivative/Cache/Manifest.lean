import ImageDerivative.Files.Tree
import ImageDerivative.Json.Reader
import ImageDerivative.Text.Utf8

/-! The manifest of a cache directory: which stored file holds the derivative of
which source under which parameters. An index leads from the two hashes to the
name of the file; it is rebuilt when a manifest is loaded. -/
namespace ImageDerivative

structure CacheEntry where
  sourceHash : String
  paramsHash : String
  size : Nat × Nat
  deriving DecidableEq, Repr

/-- The key of an entry in the index. -/
def contentKey (sourceHash paramsHash : String) : String := sourceHash ++ ":" ++ paramsHash

def CacheEntry.key (entry : CacheEntry) : String := contentKey entry.sourceHash entry.paramsHash

structure Manifest where
  version : Nat
  entries : Dict CacheEntry
  /-- From content keys to the names of stored files. -/
  index : Dict String
  deriving Repr

namespace Manifest

/-- A manifest of another version counts as empty. -/
def currentVersion : Nat := 1

def fileName : String := "manifest.json"

def path (dir : Path) : Path := Path.join dir fileName

def empty : Manifest := ⟨currentVersion, [], []⟩

def size (manifest : Manifest) : Nat := manifest.entries.length

def isEmpty (manifest : Manifest) : Bool := manifest.entries.isEmpty

def indexOf (entries : Dict CacheEntry) : Dict String :=
  Dict.ofPairs (entries.map fun (name, entry) => (entry.key, name))

def lookup? (manifest : Manifest) (sourceHash paramsHash : String) :
    Option (String × CacheEntry) := do
  let name ← manifest.index.get? (contentKey sourceHash paramsHash)
  return (name, ← manifest.entries.get? name)

/-- The recorded name and entry, if the stored file is there. -/
def findCached? (manifest : Manifest) (tree : FileTree) (dir : Path)
    (sourceHash paramsHash : String) : Option (String × CacheEntry) :=
  (manifest.lookup? sourceHash paramsHash).filter fun found => tree.exists? (Path.join dir found.1)

/-- Records an entry under a name. An older name of the same content is dropped. -/
def insert (manifest : Manifest) (name : String) (entry : CacheEntry) : Manifest :=
  let entries := match manifest.index.get? entry.key with
    | some old => if old = name then manifest.entries else manifest.entries.erase old
    | none => manifest.entries
  { manifest with
    entries := entries.put name entry
    index := manifest.index.put entry.key name }

def entryToJson (entry : CacheEntry) : JsonValue := .ofFields [
  ("source_hash", .text entry.sourceHash), ("params_hash", .text entry.paramsHash),
  ("width", .natural entry.size.1), ("height", .natural entry.size.2)]

def toJson (manifest : Manifest) : JsonValue := .ofFields [
  ("version", .natural manifest.version),
  ("entries", .ofFields (manifest.entries.map fun (name, entry) => (name, entryToJson entry)))]

/-- The values of the named fields of a record, which is written as an object or as
the array of its fields. Every field has to be there once; others are ignored. -/
def recordFields? (names : List String) : JsonValue → Option (List JsonValue)
  | .array items => if items.length = names.length then some items else none
  | .object fields =>
    if fields.all fun field => field.1.isSome then
      names.mapM fun name =>
        match fields.filter fun field => field.1 = some name with
        | [field] => some field.2
        | _ => none
    else none
  | _ => none

def word? : JsonValue → Option Nat
  | .natural n => if n < 0x100000000 then some n else none
  | _ => none

def text? : JsonValue → Option String
  | .string content => content
  | _ => none

def entryOfJson? (value : JsonValue) : Option CacheEntry := do
  match ← recordFields? ["source_hash", "params_hash", "width", "height"] value with
  | [source, params, width, height] =>
    return ⟨← text? source, ← text? params, (← word? width, ← word? height)⟩
  | _ => none

def entriesOfJson? : JsonValue → Option (Dict CacheEntry)
  | .object fields => do
    let pairs ← fields.mapM fun (name, value) => return (← name, ← entryOfJson? value)
    return Dict.ofPairs pairs
  | _ => none

def ofJson? (value : JsonValue) : Option Manifest := do
  match ← recordFields? ["version", "entries"] value with
  | [version, entries] =>
    let entries ← entriesOfJson? entries
    return ⟨← word? version, entries, indexOf entries⟩
  | _ => none

/-- The manifest that a file holds, if it can be read and has the current version. -/
def ofBytes? (content : Bytes) : Option Manifest := do
  let manifest ← ofJson? (← JsonReader.parse? (← Utf8.decode? content))
  if manifest.version = currentVersion then return manifest else none

def load (tree : FileTree) (dir : Path) : Manifest :=
  match Files.read (path dir) tree with
  | .ok content _ => (ofBytes? content).getD empty
  | .error _ _ => empty

def save (manifest : Manifest) (dir : Path) : Files Unit :=
  Files.write (path dir) (Bytes.ofText manifest.toJson.pretty)

end Manifest

end ImageDerivative
