import ImageDerivative.Container.Format
import ImageDerivative.Container.Gif
import ImageDerivative.Container.Header
import ImageDerivative.Container.Iim
import ImageDerivative.Container.Jp2
import ImageDerivative.Container.Jpeg
import ImageDerivative.Container.Tiff
import ImageDerivative.Json.Value

/-! What a container tells about its image, whichever format it has. The first
bytes decide which reader the whole is handed to. -/
namespace ImageDerivative

structure ImageInfo where
  format : Format
  width : Nat
  height : Nat
  loopCount : Option Nat := none
  delayTime : Option Nat := none
  tileSize : Option (Nat × Nat) := none
  decompositionLevels : Option Nat := none
  xmp : Option String := none
  iptc : Option Iim.Fields := none
  deriving DecidableEq, Repr

namespace ImageInfo

/-- The fields of datasets, unless they are empty. -/
def usableFields? (datasets : Option Bytes) : Option Iim.Fields :=
  (datasets.map Iim.parse).filter fun fields => !fields.isEmpty

def ofGif (record : Gif.Record) : ImageInfo := {
  format := .gif, width := record.width, height := record.height
  loopCount := some record.loopCount
  delayTime := some record.delayTime
  xmp := record.xmp }

def ofJpeg (record : Jpeg.Record) : ImageInfo := {
  format := .jpeg, width := record.width, height := record.height
  xmp := record.xmp
  iptc := usableFields? record.iptc }

def ofJp2 (record : Jp2.Record) : ImageInfo := {
  format := .jpeg2000, width := record.width, height := record.height
  tileSize := some (record.tileWidth, record.tileHeight)
  decompositionLevels := some record.decompositionLevels
  xmp := record.xmp
  iptc := usableFields? record.iptc }

variable (probe : SizeProbe)

/-- The size that the probe finds. Whatever it fails for, the file counts as malformed. -/
def sized (format : Format) (path : Path) (data : Bytes) : Except MetadataError ImageInfo :=
  match probe path data with
  | .ok (width, height) => .ok { format, width, height }
  | .error _ => .error (.malformed format.name .noDimensions)

def ofFormat (format : Format) (path : Path) (data : Bytes) : Except MetadataError ImageInfo :=
  match format with
  | .gif => ofGif <$> (Gif.read.onBytes data).1
  | .jpeg => ofJpeg <$> (Jpeg.read.onBytes data).1
  | .jpeg2000 => ofJp2 <$> (Jp2.read.onBytes data).1
  | .png | .webp => sized probe format path data
  | .tiff => do
    let info ← sized probe format path data
    return { info with iptc := Tiff.iptcFields? data }

def ofFile (path : Path) (data : Bytes) : Except MetadataError ImageInfo :=
  let head := data.take Format.sniffLength
  match Format.detect? head with
  | some format => ofFormat probe format path data
  | none => .error (.invalidSignature "image" head)

/-- A field that is left out when there is nothing to say. -/
def fieldIf (name : String) (value : Option JsonValue) : List (String × JsonValue) :=
  match value with
  | some value => [(name, value)]
  | none => []

def keywordsToJson (keywords : List String) : Option JsonValue :=
  if keywords.isEmpty then none else some (.array (keywords.map .text))

def fieldsToJson (fields : Iim.Fields) : JsonValue := .ofFields (
  fieldIf "object_name" (fields.objectName.map .text) ++
  fieldIf "caption" (fields.caption.map .text) ++
  fieldIf "keywords" (keywordsToJson fields.keywords))

def toJson (info : ImageInfo) : JsonValue := .ofFields (
  [("format", .text info.format.key),
    ("width", .natural info.width), ("height", .natural info.height)] ++
  fieldIf "loop_count" (info.loopCount.map .natural) ++
  fieldIf "delay_time" (info.delayTime.map .natural) ++
  fieldIf "tile_size" (info.tileSize.map fun size => .array [.natural size.1, .natural size.2]) ++
  fieldIf "decomposition_levels" (info.decompositionLevels.map .natural) ++
  fieldIf "xmp" (info.xmp.map .text) ++
  fieldIf "iptc" (info.iptc.map fieldsToJson))

end ImageInfo

end ImageDerivative
