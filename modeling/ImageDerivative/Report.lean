import ImageDerivative.Cache.Derivatives
import ImageDerivative.Container.Info
import ImageDerivative.Decimal.Fixed
import ImageDerivative.Imaging.Derive

/-! What the program tells people, line by line. -/
namespace ImageDerivative.Report

inductive Outcome where
  | rendered (derivative : Derivative)
  | cached (size : Size)
  deriving DecidableEq, Repr

/-- A file is called by its name; a path that ends in none is shown whole. -/
def fileLabel (path : Path) : String := (Path.fileName? path).getD path

def indent (depth : Nat) (line : String) : String :=
  String.ofList (List.replicate (4 * depth) ' ') ++ line

def sizeText (size : Size) : String := s!"{size.1}x{size.2}"

def scaleLines (input output : Path) (outcome : Outcome) : List String :=
  (fileLabel input ++ " → " ++ fileLabel output) ::
    match outcome with
    | .rendered derivative => [
        indent 1 ("Size: " ++ sizeText derivative.sourceSize ++ " → " ++ sizeText derivative.size),
        indent 1 ("Filter: " ++ derivative.kernel.displayName),
        indent 1 "Status: rendered"]
    | .cached size => [
        indent 1 ("Size: " ++ sizeText size),
        indent 1 "Status: cached"]

def cacheLine (stats : CacheStats) : String := "Cache: " ++ stats.summary

/-- A longer text is cut after `count` characters and marked. -/
def truncate (count : Nat) (text : String) : String :=
  let cs := text.toList
  if cs.length ≤ count then text else String.ofList (cs.take count) ++ "..."

def captionLength : Nat := 60

def iptcLines (fields : Iim.Fields) : List String :=
  indent 1 "IPTC:" ::
    ((fields.objectName.map fun name => indent 2 ("Title: " ++ name)).toList ++
    (fields.caption.map fun caption =>
      indent 2 ("Caption: " ++ truncate captionLength caption)).toList ++
    if fields.keywords.isEmpty then []
    else [indent 2 ("Keywords: " ++ String.intercalate ", " fields.keywords)])

def infoLines (path : Path) (info : ImageInfo) : List String :=
  [fileLabel path,
    indent 1 s!"Format: {info.format.name} ({info.format.mimeType})",
    indent 1 ("Size: " ++ sizeText (info.width, info.height))] ++
  (info.tileSize.map fun size => indent 1 ("Tiles: " ++ sizeText size)).toList ++
  (info.decompositionLevels.map fun levels =>
    indent 1 s!"Resolution levels: {levels + 1} ({levels} decompositions)").toList ++
  (info.loopCount.map fun count => indent 1 s!"Loop count: {count}").toList ++
  (info.delayTime.map fun delay => indent 1 s!"Delay: {delay}/100 s").toList ++
  (info.xmp.map fun xmp => indent 1 s!"XMP: {xmp.utf8ByteSize} bytes").toList ++
  (info.iptc.map iptcLines).getD []

def column (width : Nat) (text : String) : String :=
  text ++ String.ofList (List.replicate (width - text.length) ' ')

def kernelLine (name radius display : String) : String :=
  column 18 name ++ column 8 radius ++ display

def radiusText (kernel : Kernel) : String :=
  Fixed.text .single 1 (kernel.radius : Float32).toBits.toNat

def kernelLines : List String :=
  kernelLine "NAME" "RADIUS" "DISPLAY" :: Kernel.all.map fun kernel =>
    kernelLine kernel.name (radiusText kernel) kernel.displayName ++
      if kernel = default then " (default)" else ""

end ImageDerivative.Report
