import ImageDerivative.Codec.Standard
import ImageDerivative.Container.Info
import ImageDerivative.Imaging.Derive
import ImageDerivative.Text.Lower

/-! The backend that works on a tree of files by means of codecs. -/
namespace ImageDerivative.FileBackend

def extensions : List (String × Format) := [
  ("jpg", .jpeg), ("jpeg", .jpeg), ("png", .png), ("tif", .tiff), ("tiff", .tiff),
  ("webp", .webp), ("gif", .gif)]

/-- The format that the extension of an output picks. -/
def outputFormat (path : Path) : Except BackendError Format :=
  let extension := Text.lower ((Path.extension? path).getD "")
  match extensions.find? fun entry => entry.1 = extension with
  | some (_, format) => .ok format
  | none => .error (.processing (.unsupportedOutput extension))

abbrev Operation := EStateM BackendError FileTree

/-- A file operation whose failure counts as `error` says. -/
def onFiles {α : Type} (error : IoFailure → BackendError) (action : Files α) : Operation α :=
  fun tree =>
    match action tree with
    | .ok a tree => .ok a tree
    | .error failure tree => .error (error failure) tree

def read (path : Path) : Operation Bytes := onFiles .io (Files.read path)

/-- A directory can be opened; it is a failed read only if there is a header to read. -/
def openError (path : Path) (failure : IoFailure) : BackendError :=
  if failure = .isADirectory ∧ Format.ofName? path = none then .processing .noDimensions
  else .io failure

/-- The size that the probe finds, or else the one that the container tells. -/
def identify (codecs : Codecs) (path : Path) : Operation Size := do
  let data ← onFiles (openError path) (Files.read path)
  match codecs.probe path data with
  | .ok size => return size
  | .error .cutShort => throw (.io .unexpectedEof)
  | .error .refused =>
    match ImageInfo.ofFile codecs.probe path data with
    | .ok info => return (info.width, info.height)
    | .error _ => throw (.processing .noDimensions)

def decode (codecs : Codecs) (path : Path) : Operation Raster := do
  match codecs.decode? (← read path) with
  | some raster => return raster
  | none => throw (.processing (.undecodable path))

/-- How a file that cannot be written is reported: a JPEG file is opened before
its encoder is asked, the others by their encoders. -/
def writeError (format : Format) (failure : IoFailure) : BackendError :=
  if format = .jpeg then .io failure else .processing (.unencodable format.name)

def encode (codecs : Codecs) (bitmap : Bitmap) (path : Path) (quality : Quality) :
    Operation Unit := do
  match outputFormat path, bitmap.whole? with
  | .error error, _ => throw error
  | .ok _, none => throw (.processing (.refused "Raster buffer does not match its size"))
  | .ok format, some raster =>
    match codecs.encode? format quality raster with
    | some content => onFiles (writeError format) (Files.write path content)
    | none => throw (.processing (.unencodable format.name))

end ImageDerivative.FileBackend

namespace ImageDerivative

def fileBackend (codecs : Codecs) : Backend FileTree where
  identify := FileBackend.identify codecs
  decode := FileBackend.decode codecs
  encode := FileBackend.encode codecs

end ImageDerivative
