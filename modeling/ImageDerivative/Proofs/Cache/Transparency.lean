import Mathlib
import ImageDerivative.Proofs.Cache.ScaleRuns
import ImageDerivative.Proofs.Cache.Serving
import ImageDerivative.Proofs.Cache.StoredNames

/-! Runs through the cache come to what the same runs come to without it. Every entry of the
manifest and the file of its name are what some recipe makes of some source, and the entry
has the hashes of both; a hit finds an entry with the hashes of its own recipe and source. -/
namespace ImageDerivative

theorem Manifest.Sound.lookup {manifest : Manifest} (sound : manifest.Sound) {key name : String}
    {entry : CacheEntry} (led : manifest.reindexed.index.get? key = some name)
    (told : manifest.reindexed.entries.get? name = some entry) :
    manifest.entries.get? name = some entry ∧ entry.key = key := by
  obtain ⟨other, held, keyed⟩ := sound.get?_indexOf.mp led
  cases told.symm.trans held
  exact ⟨told, keyed⟩

namespace Program

open CommandLine (ScaleArguments)

variable {codecs : Codecs} {place : Place} {hashed : Set Bytes}

/-- An entry and the file that is stored under its name are what a recipe makes of a source. -/
def Faithful (codecs : Codecs) (hashed : Set Bytes) (entry : CacheEntry) (file : Bytes) : Prop :=
  ∃ recipe content derivative, Recipe.InRange recipe ∧ content ∈ hashed ∧
    recipe.keyBytes ∈ hashed ∧ recipe.Makes codecs content derivative file ∧
    entry = ⟨(Sha256.digest content).toHex, recipe.hash, derivative.size⟩

/-- A manifest says the truth about the files of the directory. -/
structure Describes (codecs : Codecs) (place : Place) (hashed : Set Bytes) (files : FileTree)
    (manifest : Manifest) : Prop where
  sound : manifest.Sound
  stored : ∀ {name entry}, manifest.entries.get? name = some entry →
    IsLeaf name ∧ ∃ file, files.get? (place ++ [name]) = some (.file file) ∧
      Faithful codecs hashed entry file

namespace Describes

variable {files : FileTree} {manifest : Manifest}

theorem empty : Describes codecs place hashed files .empty :=
  ⟨.empty, (nomatch ·)⟩

theorem mono {others : FileTree} (describes : Describes codecs place hashed files manifest)
    (same : SameInside place files others) : Describes codecs place hashed others manifest where
  sound := describes.sound
  stored := by
    intro name entry held
    obtain ⟨leaf, file, found, faithful⟩ := describes.stored held
    exact ⟨leaf, file, (same _ (List.cons_ne_nil _ _) _).mpr found, faithful⟩

theorem reindexed (describes : Describes codecs place hashed files manifest) :
    Describes codecs place hashed files manifest.reindexed :=
  ⟨describes.sound.reindexed, describes.stored⟩

/-- A file that is stored with its entry, whatever was under its name before. -/
theorem insert (describes : Describes codecs place hashed files manifest) {name : String}
    {entry : CacheEntry} {file : Bytes} (leaf : IsLeaf name)
    (word : Manifest.IsWordSize entry.size) (faithful : Faithful codecs hashed entry file)
    (free : files.get? (place ++ [name]) ≠ some .directory) :
    Describes codecs place hashed (files.put (place ++ [name]) (.file file))
      (manifest.insert name entry) where
  sound := describes.sound.insert name word
  stored := by
    intro other told held
    rw [Manifest.get?_insert] at held
    rw [FileTree.get?_put _ (FileTree.ne_nil_of_get? free)]
    split at held
    next same =>
      cases held
      subst same
      exact ⟨leaf, file, if_pos rfl, faithful⟩
    next apart =>
      split at held
      next => cases held
      next =>
        obtain ⟨leaf, file, found, faithful⟩ := describes.stored held
        have elsewhere : ¬ place ++ [other] = place ++ [name] := by simp [Ne.symm apart]
        exact ⟨leaf, file, (if_neg elsewhere).trans found, faithful⟩

/-- An entry that the index leads to is that of the recipe and the source that are asked for,
or of another recipe that makes the same. -/
theorem hit (describes : Describes codecs place hashed files manifest)
    (distinct : Set.InjOn Sha256.digest hashed) {recipe : Recipe} {content : Bytes}
    (inRange : recipe.InRange) (source : content ∈ hashed) (key : recipe.keyBytes ∈ hashed)
    {name : String} {entry : CacheEntry}
    (led : manifest.reindexed.index.get?
      (contentKey (Sha256.digest content).toHex recipe.hash) = some name)
    (told : manifest.reindexed.entries.get? name = some entry) :
    IsLeaf name ∧ ∃ derivative file, files.get? (place ++ [name]) = some (.file file) ∧
      recipe.Makes codecs content derivative file ∧ entry.size = derivative.size := by
  obtain ⟨held, keyed⟩ := describes.sound.lookup led told
  obtain ⟨leaf, file, found, other, former, derivative, small, before, known, makes, rfl⟩ :=
    describes.stored held
  obtain ⟨contents, keys⟩ := contentKey_inj keyed
  obtain rfl := distinct before source contents
  have agree := Recipe.agree_of_keyBytes_eq small inRange (distinct known key keys)
  exact ⟨leaf, derivative, file, found, makes.agree agree, rfl⟩

end Describes

/-- The manifest of the directory, if there is one, says the truth. -/
def Kept (codecs : Codecs) (place : Place) (hashed : Set Bytes) (files : FileTree) : Prop :=
  ∀ content, files.get? (place ++ [Manifest.fileName]) = some (.file content) →
    ∃ manifest, Manifest.ofBytes? content = some manifest.reindexed ∧
      Describes codecs place hashed files manifest

namespace SameInside

variable {files others : FileTree}

theorem of_grows (grows : files.Grows others) : SameInside place files others :=
  fun _ _ _ => ⟨fun found => grows.files found, fun found => grows.keeps found⟩

theorem of_write {output : Path} {file : Bytes} (outside : ¬ Cache.Inside place files.here output)
    (ran : Files.write output file files = .ok () others) : SameInside place files others := by
  obtain ⟨goal, located, free, rfl⟩ := Files.write_ok ran
  intro inner some content
  have apart : ¬ place ++ inner = goal := fun same =>
    outside ⟨inner, some, by rw [← FileTree.locate_ok located, same]⟩
  rw [FileTree.get?_put _ (FileTree.ne_nil_of_get? free), if_neg apart]

end SameInside

namespace Kept

variable {files : FileTree}

theorem mono {others : FileTree} (kept : Kept codecs place hashed files)
    (same : SameInside place files others) : Kept codecs place hashed others := by
  intro content found
  obtain ⟨manifest, loaded, describes⟩ :=
    kept content ((same _ (List.cons_ne_nil _ _) _).mp found)
  exact ⟨manifest, loaded, describes.mono same⟩

theorem load (kept : Kept codecs place hashed files) {dir : Path}
    (there : FileTree.directory files.here dir = place) :
    ∃ manifest, Manifest.load files dir = manifest.reindexed ∧
      Describes codecs place hashed files manifest := by
  have fresh : ∃ manifest, Manifest.empty = manifest.reindexed ∧
      Describes codecs place hashed files manifest := ⟨.empty, rfl, .empty⟩
  rw [Manifest.load_eq]
  cases located : files.locate (Manifest.path dir) with
  | error failure => exact fresh
  | ok goal =>
    have leads : goal = place ++ [Manifest.fileName] := by
      rw [FileTree.locate_ok located, Manifest.path, Cache.target_inside there (by decide),
        Manifest.placeOf_fileName]
    simp only
    cases found : files.get? goal with
    | none => exact fresh
    | some node =>
      cases node with
      | directory => exact fresh
      | file content =>
        obtain ⟨manifest, loaded, describes⟩ := kept content (leads ▸ found)
        exact ⟨manifest, by simp only [loaded, Option.getD_some], describes⟩

/-- A manifest that says the truth still says it once it is written. -/
theorem save {manifest : Manifest} (describes : Describes codecs place hashed files manifest)
    (free : files.get? (place ++ [Manifest.fileName]) ≠ some .directory) :
    Kept codecs place hashed (files.put (place ++ [Manifest.fileName])
      (.file (Bytes.ofText manifest.toJson.pretty))) := by
  have put := FileTree.get?_put files (FileTree.ne_nil_of_get? free)
  intro content found
  rw [put, if_pos rfl] at found
  cases found
  refine ⟨manifest, describes.sound.ofBytes?_toJson, describes.sound, ?_⟩
  intro name entry held
  obtain ⟨leaf, file, found, faithful⟩ := describes.stored held
  have apart : ¬ place ++ [name] = place ++ [Manifest.fileName] := by simp [leaf.other]
  exact ⟨leaf, file, by rw [put, if_neg apart, found], faithful⟩

end Kept

namespace Describes

variable {recipe : Recipe} {content : Bytes} {files : FileTree} {cache : Cache}
  {manifest : Manifest}

/-- A hit writes what the recipe makes of the source. -/
theorem served (describes : Describes codecs place hashed files manifest)
    (distinct : Set.InjOn Sha256.digest hashed) (inRange : recipe.InRange)
    (source : content ∈ hashed) (key : recipe.keyBytes ∈ hashed)
    (there : FileTree.directory files.here cache.dir = place)
    (loaded : cache.manifest = manifest.reindexed)
    (outside : ¬ Cache.Inside place files.here recipe.output) {hit : CacheHit}
    {left : Cache.Session}
    (ran : Cache.restore (Sha256.digest content).toHex recipe.hash recipe.output ⟨files, cache⟩ =
      .ok (some hit) left) :
    ∃ derivative file, recipe.Makes codecs content derivative file ∧
      hit.size = derivative.size ∧ Files.write recipe.output file files = .ok () left.files := by
  obtain ⟨name, entry, led, told, rfl, copied⟩ := Cache.restore_hit ran
  rw [loaded] at led told
  obtain ⟨leaf, derivative, file, found, makes, size⟩ :=
    describes.hit distinct inRange source key led told
  have leads := (Cache.target_inside there leaf.named.1).trans (leaf.placeOf place)
  exact ⟨derivative, file, makes, size, Cache.write_of_served (Path.join_ne_empty _ leaf.named.1)
    (List.cons_ne_nil _ _) leads found outside copied⟩

/-- A store keeps the manifest truthful and the output as it is. -/
theorem deposited (describes : Describes codecs place hashed files manifest)
    (inRange : recipe.InRange) (source : content ∈ hashed) (key : recipe.keyBytes ∈ hashed)
    {derivative : Derivative} {file : Bytes}
    (makes : recipe.Makes codecs content derivative file)
    (there : FileTree.directory files.here cache.dir = place) (loaded : cache.manifest = manifest)
    (outside : ¬ Cache.Inside place files.here recipe.output)
    (node : files.node? recipe.output = some (.file file)) {stored : Path} {after : FileTree}
    {left : Cache}
    (ran : Cache.store (Sha256.digest content).toHex recipe.hash recipe.output derivative.size
      ⟨files, cache⟩ = .ok stored ⟨after, left⟩) :
    Kept codecs place hashed after ∧ after.node? recipe.output = some (.file file) := by
  have leaf := IsLeaf.storedName (Sha256.length_digest content)
    (Sha256.length_digest recipe.keyBytes) recipe.output
  generalize named : storedName (Sha256.digest content).toHex (Sha256.digest recipe.keyBytes).toHex
    (Path.lowerExtension recipe.output) = name at leaf
  obtain ⟨copied, copying, saving⟩ := Cache.store_done named ran
  obtain ⟨put, rfl, free, whole⟩ :=
    Cache.copied_inside there leaf.named.1 outside node copying
  rw [leaf.placeOf] at free whole saving
  obtain rfl := whole _ (List.cons_ne_nil _ _) rfl
  have here := FileTree.here_put files (place ++ [name]) (.file put)
  obtain ⟨clear, rfl⟩ := Cache.saved_inside (here.symm ▸ there) saving
  let entry : CacheEntry := ⟨(Sha256.digest content).toHex, recipe.hash, derivative.size⟩
  have word : Manifest.IsWordSize entry.size := makes.size_lt
  have faithful : Faithful codecs hashed entry put :=
    ⟨recipe, content, derivative, inRange, source, key, makes, rfl⟩
  have apart (inner : String) :
      FileTree.target files.here (Path.pieces recipe.output) ≠ place ++ [inner] :=
    fun same => outside ⟨[inner], List.cons_ne_nil _ _, same⟩
  constructor
  · exact .save (loaded ▸ describes.insert leaf word faithful free) clear
  · refine FileTree.node?_put_of_ne _ clear ?_ (FileTree.node?_put_of_ne _ free (apart _) node)
    rw [here]
    exact apart _

end Describes

section Run

variable {pool : WorkerPool} {arguments : ScaleArguments} {config : Config}
  {files after : FileTree} {outcome : Report.Outcome} {stats : Option CacheStats}

theorem comes_of_cached (distinct : Set.InjOn Sha256.digest hashed)
    (kept : Kept codecs place hashed files) (shares : Shares place hashed arguments config files)
    (uses : usesCache arguments config = true)
    (ran : scale codecs pool arguments config files = .ok (outcome, stats) after) :
    Kept codecs place hashed after ∧ ∃ derivative file left,
      Comes codecs arguments config (prepared arguments config files) derivative file ∧
      Files.write arguments.output file (prepared arguments config files) = .ok () left ∧
      outcome.size = derivative.size ∧ after.node? arguments.output = some (.file file) := by
  obtain ⟨recipe, counts, given, ran⟩ := scale_cached_ok uses ran
  obtain ⟨made, content, cache, making, dir, loaded, found, run⟩ := renderCached_ok ran
  have ready : prepared arguments config files = made := by
    simp only [prepared, uses, if_true, Files.after, making]
  have grows := ready ▸ grows_prepared arguments config files
  obtain ⟨input, output⟩ := ScaleArguments.recipe_paths given
  have inRange := ScaleArguments.inRange_recipe shares.inRange given
  have key := shares.key uses recipe given
  have source := shares.source uses content (by rw [ready, ← input]; exact found)
  have there : FileTree.directory made.here cache.dir = place := by
    rw [grows.here_eq, dir]
    exact shares.directory uses
  have outside : ¬ Cache.Inside place made.here recipe.output := by
    rw [grows.here_eq, output]
    exact shares.outside
  have kept := kept.mono (.of_grows grows)
  obtain ⟨manifest, known, describes⟩ := kept.load (dir ▸ there)
  rw [ready, ← output]
  obtain ⟨hit, left, rfl, served⟩ |
    ⟨derivative, rendered, counted, stored, left, rfl, same, unchanged, rendering, storing⟩ := run
  · obtain ⟨derivative, file, makes, size, written⟩ :=
      describes.served distinct inRange source key there (loaded.trans known) outside served
    exact ⟨kept.mono (.of_write outside written), derivative, file, after,
      ⟨recipe, content, given, input ▸ found, makes⟩, written, size, Files.node?_write written⟩
  · obtain ⟨again, file, also, makes, written⟩ := render_eq_ok.mp rendering
    cases found.symm.trans also
    have describes := describes.reindexed.mono (.of_write outside written)
    have here := Files.here_write written
    obtain ⟨kept, node⟩ := describes.deposited inRange source key makes
      (by rw [here, same, ← dir]; exact there) ((unchanged.trans loaded).trans known)
      (by rw [here]; exact outside) (Files.node?_write written) storing
    exact ⟨kept, derivative, file, rendered, ⟨recipe, content, given, input ▸ found, makes⟩,
      written, rfl, node⟩

/-- A run keeps the manifest truthful, and leaves what its arguments come to. -/
theorem comes_of_scale (distinct : Set.InjOn Sha256.digest hashed)
    (kept : Kept codecs place hashed files) (shares : Shares place hashed arguments config files)
    (ran : scale codecs pool arguments config files = .ok (outcome, stats) after) :
    Kept codecs place hashed after ∧ ∃ derivative file left,
      Comes codecs arguments config (prepared arguments config files) derivative file ∧
      Files.write arguments.output file (prepared arguments config files) = .ok () left ∧
      outcome.size = derivative.size ∧ after.node? arguments.output = some (.file file) := by
  cases uses : usesCache arguments config with
  | true => exact comes_of_cached distinct kept shares uses ran
  | false =>
    have ready : prepared arguments config files = files := by simp [prepared, uses]
    obtain ⟨derivative, file, comes, written, rfl, rfl⟩ := (scale_uncached_eq_ok uses).mp ran
    rw [ready]
    exact ⟨kept.mono (.of_write shares.outside written), derivative, file, after, comes, written,
      rfl, Files.node?_write written⟩

end Run

theorem Runs.kept (distinct : Set.InjOn Sha256.digest hashed) {files : FileTree}
    (runs : Runs codecs place hashed files) : Kept codecs place hashed files := by
  induction runs with
  | start fresh => exact fun content found => absurd found (fresh content)
  | edited _ same ih => exact ih.mono same
  | scaled _ shares ran ih => exact (comes_of_scale distinct ih shares ran).1

/-- What a run shows: the size that it reports and what its output then holds. -/
def result? (codecs : Codecs) (pool : WorkerPool) (arguments : ScaleArguments) (config : Config)
    (files : FileTree) : Option (Size × Option Node) :=
  match scale codecs pool arguments config files with
  | .ok (outcome, _) after => some (outcome.size, after.node? arguments.output)
  | .error _ _ => none

section Result

variable {pool : WorkerPool} {arguments : ScaleArguments} {config : Config} {files : FileTree}
  {shown : Size × Option Node}

theorem result?_eq_some : result? codecs pool arguments config files = some shown ↔
    ∃ outcome stats after, scale codecs pool arguments config files = .ok (outcome, stats) after ∧
      shown = (outcome.size, after.node? arguments.output) := by
  unfold result?
  cases scale codecs pool arguments config files with
  | error failure left => simp
  | ok made after =>
    obtain ⟨outcome, stats⟩ := made
    simp [eq_comm]

theorem result?_uncached (skips : usesCache arguments config = false) :
    result? codecs pool arguments config files = some shown ↔
      ∃ derivative file left, Comes codecs arguments config files derivative file ∧
        Files.write arguments.output file files = .ok () left ∧
        shown = (derivative.size, some (.file file)) := by
  rw [result?_eq_some]
  constructor
  · rintro ⟨outcome, stats, after, ran, rfl⟩
    obtain ⟨derivative, file, comes, written, rfl, rfl⟩ := (scale_uncached_eq_ok skips).mp ran
    rw [Files.node?_write written]
    exact ⟨derivative, file, after, comes, written, rfl⟩
  · rintro ⟨derivative, file, after, comes, written, rfl⟩
    refine ⟨.rendered derivative, none, after, (scale_uncached_eq_ok skips).mpr ?_, ?_⟩
    · exact ⟨derivative, file, comes, written, rfl, rfl⟩
    · rw [Files.node?_write written]
      rfl

/-- The cache is transparent. After any runs that share a cache directory, whatever happens to
the files outside between them, a run shows what the same run shows without the cache: on the
files as it finds them, with its cache directory made, and also on the files before that if the
run without the cache succeeds there (its paths may lead through the directory). It is enough
that whole digests tell the hashed byte strings apart: names of stored files, which keep
sixteen digits, may clash. -/
theorem result?_eq_uncached (distinct : Set.InjOn Sha256.digest hashed)
    (runs : Runs codecs place hashed files) (shares : Shares place hashed arguments config files)
    (ran : result? codecs pool arguments config files = some shown) :
    (∃ file, shown.2 = some (.file file)) ∧ ∀ other : WorkerPool,
      result? codecs other { arguments with noCache := true } config
          (prepared arguments config files) = some shown ∧
        ∀ plain, result? codecs other { arguments with noCache := true } config files = some plain →
          plain = shown := by
  obtain ⟨outcome, stats, after, scaled, rfl⟩ := result?_eq_some.mp ran
  obtain ⟨_, derivative, file, left, comes, written, size, node⟩ :=
    comes_of_scale distinct (runs.kept distinct) shares scaled
  have skips : usesCache { arguments with noCache := true } config = false := by simp [usesCache]
  rw [size, node]
  refine ⟨⟨file, rfl⟩, fun other => ⟨?_, fun plain shown => ?_⟩⟩
  · exact (result?_uncached skips).mpr ⟨derivative, file, left, comes, written, rfl⟩
  · obtain ⟨former, before, _, bare, _, rfl⟩ := (result?_uncached skips).mp shown
    have grows := grows_prepared arguments config files
    obtain ⟨rfl, rfl⟩ := Comes.unique bare grows comes
    rfl

end Result

end Program

namespace Program.Moved

open CommandLine (ScaleArguments)

def scan : Bytes := [
  71, 73, 70, 56, 57, 97, 2, 0, 2, 0, 0, 0, 0, 44, 0, 0, 0, 0, 2, 0, 2, 0, 0, 8, 16, 1, 2, 3, 4, 5,
  6, 7, 8, 9, 10, 11, 12, 13, 14, 15, 16, 0, 59]

def clear : Bytes := [
  71, 73, 70, 56, 57, 97, 1, 0, 1, 0, 0, 0, 0, 44, 0, 0, 0, 0, 1, 0, 1, 0, 0, 8, 4, 0, 0, 0, 0, 0,
  59]

/-- The percentage makes a size that is not finite, which leaves one pixel. -/
def arguments (input output : Path) : ScaleArguments := { input, output, percent := some 1e308 }

def config : Config := { cacheDirectory := "cache" }

def recipe (input output : Path) : Recipe where
  source := input
  output := output
  mode := .percent (.ofFloat 1e308)
  kernel := none
  policy := {}
  sharpen := .ofFloat 0.0
  linear := false
  quality := .standard

def derivative : Derivative := ⟨(2, 2), (1, 1), 4, .box⟩

/-- The key of every recipe with a GIF as output. -/
def key : Bytes :=
  Bytes.ofText "derive" ++ [0] ++ Recipe.modeBytes (.percent (.ofFloat 1e308)) ++ [0] ++
    Recipe.kernelBytes none {} ++ [0] ++
    Bytes.toLittleEndian 4 (Binary32.ofFloat 0.0).bits.toNat ++
    [0] ++ Bytes.toLittleEndian 4 90 ++ Bytes.ofText "gif"

def hashed : Set Bytes := {scan, key}

theorem distinct : Set.InjOn Sha256.digest hashed := by
  have apart : Sha256.digest scan ≠ Sha256.digest key := by decide +kernel
  exact Set.injOn_pair.mpr fun same => absurd same apart

theorem extension?_out : Path.extension? "out.gif" = some "gif" := by cbv

theorem extension?_again : Path.extension? "again.gif" = some "gif" := by cbv

section Output

variable {input output : Path} (ending : Path.extension? output = some "gif")
include ending

theorem lowerExtension_eq : Path.lowerExtension output = "gif" := by
  have small : "gif".toLower = "gif" := by cbv
  rw [Path.lowerExtension, ending, Option.getD_some, small]

theorem keyBytes_eq : (recipe input output).keyBytes = key := by
  unfold Recipe.keyBytes
  rw [show Path.lowerExtension (recipe input output).output = "gif" from lowerExtension_eq ending]
  rfl

theorem hash_eq : (recipe input output).hash = (Sha256.digest key).toHex := by
  rw [Recipe.hash, keyBytes_eq ending]

theorem makes : (recipe input output).Makes .standard scan derivative clear := by
  have chosen : FileBackend.outputFormat output = .ok .gif := by
    have small : Text.lower "gif" = "gif" := by cbv
    unfold FileBackend.outputFormat
    rw [ending, Option.getD_some, small]
    rfl
  let source : Raster :=
    ⟨⟨2, 2, 4, .gamma, #[1, 2, 3, 4, 5, 6, 7, 8, 9, 10, 11, 12, 13, 14, 15, 16], by decide⟩, rfl⟩
  let out : Raster := ⟨⟨1, 1, 4, .gamma, #[0, 0, 0, 0], by decide⟩, rfl⟩
  have decoded : Codecs.standard.decode? scan = some source := by decide +kernel
  have encoded : Codecs.standard.encode? .gif .standard out = some clear := by decide +kernel
  have size : resultingSize (2, 2) (.percent (.ofFloat 1e308)) = (1, 1) := by decide +kernel
  have kernel : chooseKernel none (2, 2) (1, 1) {} = .box := by decide
  have scaled : ImageDerivative.scale source (1, 1) .box false (.ofSize 1) = .ok out.toBitmap := by
    decide +kernel
  have masked : sharpen out.toBitmap (Binary32.ofFloat 0.0).toFloat (.ofSize 1) =
      .ok out.toBitmap := by decide +kernel
  have rendered : (recipe input output).render (.ofSize 1) source =
      .ok (derivative, out.toBitmap) := by
    have dimensions : source.dimensions = (2, 2) := rfl
    simp only [Recipe.render, recipe, dimensions, size, kernel, scaled, bind, Except.bind, masked]
    rfl
  exact ⟨_, decoded, rendered, chosen, encoded⟩

end Output

theorem given (input output : Path) :
    (arguments input output).recipe config = .ok (recipe input output) := by
  have finite : ((1e308 : Float).isFinite && (0.0 : Float) < 1e308) = true := by decide +kernel
  simp only [ScaleArguments.recipe, ScaleArguments.mode, ScaleArguments.axes, arguments, finite]
  rfl

def place : Place := ["cache"]

theorem folder_cache : Path.folder config.cacheDirectory = ["cache"] := by
  have single : Path.folder "cache" = ["cache"] := by cbv
  exact single

theorem steps_cache : Path.steps config.cacheDirectory = ["cache"] := by
  have single : Path.steps "cache" = ["cache"] := by cbv
  exact single

/-- There is a cache directory in the root, which is the working directory, and a scan. -/
structure Ready (files : FileTree) (input : Path) : Prop where
  here : files.here = []
  opened : files.get? place = some .directory
  scanned : files.get? [input] = some (.file scan)
  leaf : IsLeaf input

namespace Ready

variable {files : FileTree} {input output : Path}

theorem resolve (ready : Ready files input) : files.resolve ["cache"] = .ok place := by
  rw [FileTree.resolve, if_neg (by decide), ready.here]
  rfl

theorem locate (ready : Ready files input) {name : String} (leaf : IsLeaf name) :
    files.locate name = .ok [name] := by
  have root : files.get? files.here = some .directory := by
    rw [ready.here]
    rfl
  rw [FileTree.locate_name root leaf.whole leaf.named, ready.here]
  rfl

theorem locate_inside (ready : Ready files input) {name : String} (whole : '/' ∉ name.toList)
    (named : name ≠ "" ∧ name ≠ "." ∧ name ≠ "..") :
    files.locate (Path.join config.cacheDirectory name) = .ok (place ++ [name]) :=
  FileTree.locate_join (folder_cache ▸ ready.resolve) ready.opened whole named

theorem makePath (ready : Ready files input) :
    Files.makePath config.cacheDirectory files = .ok () files :=
  Files.makePath_there (steps_cache ▸ ready.resolve) ready.opened

theorem prepared (ready : Ready files input) :
    Program.prepared (arguments input output) config files = files := by
  have uses : usesCache (arguments input output) config = true := rfl
  simp only [Program.prepared, uses, if_true, Files.after, ready.makePath]

theorem node? (ready : Ready files input) : files.node? input = some (.file scan) :=
  (FileTree.node?_eq (ready.locate ready.leaf)).trans ready.scanned

theorem shares (ready : Ready files input) (leaf : IsLeaf output) (other : output ≠ "cache")
    (ending : Path.extension? output = some "gif") :
    Shares place hashed (arguments input output) config files where
  inRange := ⟨nofun, nofun⟩
  outside := by
    rintro ⟨inner, _, same⟩
    have leads := FileTree.target_of_not_mem [] leaf.whole leaf.named
    rw [ready.here] at same
    exact other (List.cons.inj (leads.symm.trans same)).1
  directory := by
    intro _
    rw [ready.here, FileTree.directory, folder_cache]
    rfl
  source := by
    intro _ content found
    rw [ready.prepared] at found
    cases ready.node?.symm.trans found
    exact .inl rfl
  key := by
    intro _ other told
    cases (given input output).symm.trans told
    exact .inr (keyBytes_eq ending)

theorem «open» (ready : Ready files input) {manifest : Manifest}
    (loaded : Manifest.load files config.cacheDirectory = manifest) :
    Cache.open config.cacheDirectory files =
      .ok { dir := config.cacheDirectory, manifest } files := by
  rw [Cache.open_eq, ready.makePath, ← loaded]

theorem load (ready : Ready files input) : Manifest.load files config.cacheDirectory =
    match files.get? (place ++ [Manifest.fileName]) with
    | some (.file content) => (Manifest.ofBytes? content).getD .empty
    | _ => .empty := by
  have loads := Manifest.load_eq files config.cacheDirectory
  rw [Manifest.path, ready.locate_inside (by decide) (by decide)] at loads
  exact loads

end Ready

def name : String := storedName (Sha256.digest scan).toHex (Sha256.digest key).toHex "gif"

def entry : CacheEntry := ⟨(Sha256.digest scan).toHex, (Sha256.digest key).toHex, (1, 1)⟩

def manifest : Manifest := Manifest.empty.insert name entry

theorem sound_manifest : manifest.Sound :=
  Manifest.Sound.empty.insert name ⟨by decide, by decide⟩

theorem isLeaf_name : IsLeaf name := by
  have leaf := IsLeaf.storedName (Sha256.length_digest scan) (Sha256.length_digest key) "out.gif"
  rwa [lowerExtension_eq extension?_out] at leaf

theorem isLeaf_scan : IsLeaf "scan.gif" := ⟨by decide, by decide, by decide⟩

theorem isLeaf_out : IsLeaf "out.gif" := ⟨by decide, by decide, by decide⟩

theorem isLeaf_moved : IsLeaf "moved.gif" := ⟨by decide, by decide, by decide⟩

theorem isLeaf_again : IsLeaf "again.gif" := ⟨by decide, by decide, by decide⟩

def first : FileTree := { nodes := [(place, .directory), (["scan.gif"], .file scan)] }

def rendered : FileTree := first.put ["out.gif"] (.file clear)

def stored : FileTree :=
  (rendered.put (place ++ [name]) (.file clear)).put (place ++ [Manifest.fileName])
    (.file (Bytes.ofText manifest.toJson.pretty))

def moved : FileTree := (stored.put ["moved.gif"] (.file scan)).put ["scan.gif"] (.file [])

theorem ready_first : Ready first "scan.gif" := ⟨rfl, rfl, rfl, isLeaf_scan⟩

theorem get?_stored (other : Place) : stored.get? other =
    if other = place ++ [Manifest.fileName] then
      some (.file (Bytes.ofText manifest.toJson.pretty))
    else if other = place ++ [name] then some (.file clear)
    else if other = ["out.gif"] then some (.file clear)
    else first.get? other := by
  have below (inner : String) : place ++ [inner] ≠ [] := List.cons_ne_nil _ _
  rw [stored, FileTree.get?_put _ (below _), FileTree.get?_put _ (below _), rendered,
    FileTree.get?_put _ (List.cons_ne_nil _ _)]

theorem get?_moved (other : Place) : moved.get? other =
    if other = ["scan.gif"] then some (.file [])
    else if other = ["moved.gif"] then some (.file scan)
    else stored.get? other := by
  rw [moved, FileTree.get?_put _ (List.cons_ne_nil _ _), FileTree.get?_put _ (List.cons_ne_nil _ _)]

theorem ready_rendered : Ready rendered "scan.gif" := ⟨rfl, rfl, rfl, isLeaf_scan⟩

theorem scale_first : scale .standard (.ofSize 1) (arguments "scan.gif" "out.gif") config first =
    .ok (.rendered derivative, some ⟨0, 1⟩) stored := by
  have loaded : Manifest.load first config.cacheDirectory = .empty := ready_first.load.trans rfl
  let cache : Cache := { dir := config.cacheDirectory, manifest := .empty }
  have missed : Cache.restore (Sha256.digest scan).toHex (recipe "scan.gif" "out.gif").hash
      "out.gif" ⟨first, cache⟩ = .ok none ⟨first, cache.miss⟩ := by
    rw [Cache.restore_eq]
    rfl
  have written : Files.write "out.gif" clear first = .ok () rendered :=
    Files.write_free clear (ready_first.locate isLeaf_out) (by decide)
  have made : render .standard (.ofSize 1) (recipe "scan.gif" "out.gif") first =
      .ok derivative rendered :=
    render_eq_ok.mpr ⟨scan, clear, ready_first.node?, makes extension?_out, written⟩
  have named : storedName (Sha256.digest scan).toHex (recipe "scan.gif" "out.gif").hash
      (Path.lowerExtension "out.gif") = name := by
    rw [hash_eq extension?_out, lowerExtension_eq extension?_out]
    rfl
  have inserted : cache.miss.manifest.insert name ⟨(Sha256.digest scan).toHex,
      (recipe "scan.gif" "out.gif").hash, (1, 1)⟩ = manifest := by
    rw [hash_eq extension?_out]
    rfl
  have reached := ready_rendered.locate_inside isLeaf_name.whole isLeaf_name.named
  have told : rendered.locate (Manifest.path config.cacheDirectory) =
      .ok (place ++ [Manifest.fileName]) := ready_rendered.locate_inside (by decide) (by decide)
  have apart : place ++ [Manifest.fileName] ≠ place ++ [name] := by
    simp [Ne.symm isLeaf_name.other]
  have deposited := (Cache.store_ok cache.miss named inserted (ready_rendered.locate isLeaf_out)
    rfl reached (by decide) (by decide) told (by decide) apart).1
  exact scale_of_miss rfl (given _ _) (ready_first.open loaded) ready_first.node? missed made
    deposited

theorem ready_moved : Ready moved "moved.gif" where
  here := by
    simp only [moved, stored, rendered, FileTree.here_put]
    rfl
  opened := by
    rw [get?_moved, get?_stored]
    decide
  scanned := by
    rw [get?_moved]
    decide
  leaf := isLeaf_moved

theorem load_moved : Manifest.load moved config.cacheDirectory = manifest.reindexed := by
  rw [ready_moved.load, get?_moved, get?_stored, if_neg (by decide), if_neg (by decide),
    if_pos rfl]
  simp only [sound_manifest.ofBytes?_toJson, Option.getD_some]

theorem free_again : moved.get? ["again.gif"] ≠ some .directory := by
  rw [get?_moved, get?_stored]
  decide

theorem scale_again : scale .standard (.ofSize 2) (arguments "moved.gif" "again.gif") config moved =
    .ok (.cached (1, 1), some ⟨1, 0⟩) (moved.put ["again.gif"] (.file clear)) := by
  let cache : Cache := { dir := config.cacheDirectory, manifest := manifest.reindexed }
  have told : manifest.entries.get? name = some entry := by
    rw [manifest, Manifest.get?_insert, if_pos rfl]
  have led : cache.manifest.index.get? (contentKey (Sha256.digest scan).toHex
      (recipe "moved.gif" "again.gif").hash) = some name := by
    rw [hash_eq extension?_again]
    exact sound_manifest.get?_indexOf.mpr ⟨entry, told, rfl⟩
  have kept : moved.get? (place ++ [name]) = some (.file clear) := by
    have apart : place ++ [name] ≠ place ++ [Manifest.fileName] := by simp [isLeaf_name.other]
    rw [get?_moved, get?_stored, if_neg (by decide), if_neg (by decide), if_neg apart, if_pos rfl]
  have served := Cache.restore_ok cache led told
    (ready_moved.locate_inside isLeaf_name.whole isLeaf_name.named) kept
    (ready_moved.locate isLeaf_again) free_again (by decide)
  exact scale_of_hit rfl (given _ _) (ready_moved.open load_moved) ready_moved.node? served

theorem runs : Runs .standard place hashed moved := by
  have start : Runs .standard place hashed first := .start nofun
  have once := start.scaled (ready_first.shares isLeaf_out (by decide) extension?_out) scale_first
  refine once.edited fun inner some content => ?_
  have apart (name : String) (other : name ≠ "cache") : place ++ inner ≠ [name] :=
    fun same => other (List.cons.inj same).1.symm
  rw [get?_moved, if_neg (apart _ (by decide)), if_neg (apart _ (by decide))]

end Program.Moved

open Program in
/-- The copy of the scan is served from the cache. -/
theorem Program.result?_eq_uncached_moved :
    Set.InjOn Sha256.digest Moved.hashed ∧ Runs .standard Moved.place Moved.hashed Moved.moved ∧
    Shares Moved.place Moved.hashed (Moved.arguments "moved.gif" "again.gif") Moved.config
      Moved.moved ∧
    result? .standard (.ofSize 2) (Moved.arguments "moved.gif" "again.gif") Moved.config
      Moved.moved = some ((1, 1), some (.file Moved.clear)) ∧
    ∀ other : WorkerPool, result? .standard other
      { Moved.arguments "moved.gif" "again.gif" with noCache := true } Moved.config
        Moved.moved = some ((1, 1), some (.file Moved.clear)) := by
  have shares := Moved.ready_moved.shares Moved.isLeaf_again (by decide)
    Moved.extension?_again
  have node : (Moved.moved.put ["again.gif"] (.file Moved.clear)).node? "again.gif" =
      some (.file Moved.clear) :=
    FileTree.node?_put Moved.clear (Moved.ready_moved.locate Moved.isLeaf_again) Moved.free_again
  have ran : result? .standard (.ofSize 2) (Moved.arguments "moved.gif" "again.gif") Moved.config
      Moved.moved = some ((1, 1), some (.file Moved.clear)) :=
    result?_eq_some.mpr ⟨_, _, _, Moved.scale_again, by rw [← node]; rfl⟩
  refine ⟨Moved.distinct, Moved.runs, shares, ran, fun other => ?_⟩
  have plain := ((result?_eq_uncached Moved.distinct Moved.runs shares ran).2 other).1
  rw [Moved.ready_moved.prepared] at plain
  exact plain

end ImageDerivative
