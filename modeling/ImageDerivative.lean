import ImageDerivative.Container.LazyReader
import ImageDerivative.Json.Choice
import ImageDerivative.Program
import ImageDerivative.Main
import ImageDerivative.Proofs.Imaging.RowPass
import ImageDerivative.Proofs.Imaging.ContributionRows
import ImageDerivative.Proofs.Imaging.TwoPass
import ImageDerivative.Proofs.Container.GifFormat
import ImageDerivative.Proofs.Container.GifWalk
import ImageDerivative.Proofs.Container.GifStream
import ImageDerivative.Proofs.Container.GifRetry
import ImageDerivative.Proofs.Cache.ManifestFile
import ImageDerivative.Proofs.Files.Effects
import ImageDerivative.Proofs.Cache.History
import ImageDerivative.Proofs.Cache.Calls
import ImageDerivative.Proofs.Cache.Serving
import ImageDerivative.Proofs.Container.Jp2Boxes
import ImageDerivative.Proofs.Container.Jp2Walk
import ImageDerivative.Proofs.Container.JpegFormat
import ImageDerivative.Proofs.Container.JpegStream
import ImageDerivative.Proofs.Container.JpegParse
import ImageDerivative.Proofs.Container.JpegChunks
import ImageDerivative.Proofs.Container.JpegSlices
import ImageDerivative.Proofs.Container.JpegCoverage
import ImageDerivative.Proofs.Text.Lower
import ImageDerivative.Proofs.Imaging.RecipeKey
import ImageDerivative.Proofs.Imaging.PoolChoice
import ImageDerivative.Proofs.Imaging.Rendering
import ImageDerivative.Proofs.CommandLine.Numbers
import ImageDerivative.Proofs.CommandLine.RecipeKeys
import ImageDerivative.Proofs.Cache.StoredNames
import ImageDerivative.Proofs.Cache.ScaleRuns
import ImageDerivative.Proofs.Cache.Transparency
import ImageDerivative.Proofs.Container.Jp2Format
import ImageDerivative.Proofs.Container.Jp2Stream
import ImageDerivative.Proofs.Container.Jp2Coding
import ImageDerivative.Proofs.Container.Jp2Wrapping
import ImageDerivative.Proofs.Container.Settled
import ImageDerivative.Proofs.Container.Delimited
import ImageDerivative.Proofs.Imaging.RowCalls
import ImageDerivative.Proofs.Imaging.SampleGrids
import ImageDerivative.Proofs.Imaging.Sharpening
import ImageDerivative.Proofs.Imaging.Requests
import ImageDerivative.Proofs.Imaging.Channels
import ImageDerivative.Proofs.Imaging.Derivation
import ImageDerivative.Proofs.Imaging.OutputTag
import ImageDerivative.Proofs.Container.LazyReads
import ImageDerivative.Proofs.Container.Sniffing
import ImageDerivative.Proofs.Config.Layering
import ImageDerivative.Proofs.Cache.FailedStores
import ImageDerivative.Proofs.Cache.Insertions
import ImageDerivative.Proofs.Container.XmpPackets
import ImageDerivative.Proofs.Container.IimDatasets
import ImageDerivative.Proofs.Container.ImageResources
import ImageDerivative.Proofs.Container.TiffFormat
import ImageDerivative.Proofs.Container.TiffChain
import ImageDerivative.Proofs.Toml.Overriding
import ImageDerivative.Proofs.Container.RdfElements
import ImageDerivative.Proofs.Container.Progress
import ImageDerivative.Proofs.Imaging.LiveCandidates
import ImageDerivative.Proofs.Imaging.RasterLayout
