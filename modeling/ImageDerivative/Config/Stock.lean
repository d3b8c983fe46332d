import ImageDerivative.Config

/-! A configuration file that documents every setting. Read back, it stands for the
stock defaults. -/
namespace ImageDerivative.Config

def stockLines : List String := [
  "# iiif-raster Configuration",
  "# =========================",
  "# All settings are optional. Remove or comment out any you don't need.",
  "# Values shown below are the defaults.",
  "#",
  "# Pass a file with --config, or place iiif-raster.toml in the working",
  "# directory. Unknown keys will cause an error.",
  "",
  "# ---------------------------------------------------------------------------",
  "# Processing",
  "# ---------------------------------------------------------------------------",
  "[processing]",
  "# Resampler worker threads.",
  "# Omit or comment out to auto-detect (= number of CPU cores).",
  "# max_threads = 4",
  "",
  "# ---------------------------------------------------------------------------",
  "# Scaling",
  "# ---------------------------------------------------------------------------",
  "[scale]",
  "# Kernel used when either axis shrinks, unless --filter is given.",
  "# One of: bell, bicubic, bicubic-high-freq, box, bspline, hermite,",
  "# lanczos3, mitchell, triangle.",
  "downscale_filter = \"box\"",
  "",
  "# Kernel used when no axis shrinks.",
  "upscale_filter = \"bicubic\"",
  "",
  "# Tag output as linear light instead of gamma-encoded.",
  "linear_output = false",
  "",
  "# Unsharp-mask amount applied after scaling (0 = off, max 10).",
  "sharpen = 0.0",
  "",
  "# JPEG encoding quality (1 = worst, 100 = best).",
  "quality = 90",
  "",
  "# ---------------------------------------------------------------------------",
  "# Derivative cache",
  "# ---------------------------------------------------------------------------",
  "[cache]",
  "# Reuse previously generated derivatives with the same source and options.",
  "enabled = true",
  "",
  "# Where cached derivatives and the manifest live.",
  "directory = \".iiif-cache\"",
  "",
  "# ---------------------------------------------------------------------------",
  "# Logging",
  "# ---------------------------------------------------------------------------",
  "[log]",
  "# trace, debug, info, warn, error or off. RUST_LOG overrides this.",
  "level = \"info\""]

/-- Every line is closed by a line feed. -/
def stockText : String := String.join (stockLines.map fun line => line ++ "\n")

end ImageDerivative.Config
