import Mathlib
import ImageDerivative.Program
import ImageDerivative.Proofs.Cache.Calls
import ImageDerivative.Proofs.CommandLine.Numbers

/-! Runs of the scale command, taken apart, and the files that a series of them leaves where
all share one cache directory. -/
namespace ImageDerivative

def Report.Outcome.size : Outcome → Size
  | .rendered derivative => derivative.size
  | .cached size => size

namespace Program

open CommandLine (ScaleArguments)

theorem ofExcept_eq_ok {ε α : Type} {wrap : ε → ProgramError} {made : Except ε α} {a : α}
    {files left : FileTree} : ofExcept wrap made files = .ok a left ↔ made = .ok a ∧ left = files := by
  cases made with
  | error error => simp [ofExcept, throw, throwThe, MonadExceptOf.throw, EStateM.throw]
  | ok a => simp [ofExcept, pure, EStateM.pure, eq_comm]

theorem onFiles_eq_ok {ε α : Type} {wrap : ε → ProgramError} {action : EStateM ε FileTree α} {a : α}
    {files left : FileTree} : onFiles wrap action files = .ok a left ↔ action files = .ok a left := by
  unfold onFiles
  cases action files <;> simp

theorem onCache_eq_ok {α : Type} {cache : Cache} {task : Cache.Task α} {a : α × Cache}
    {files left : FileTree} :
    onCache cache task files = .ok a left ↔ task ⟨files, cache⟩ = .ok a.1 ⟨left, a.2⟩ := by
  obtain ⟨a, other⟩ := a
  unfold onCache
  cases task ⟨files, cache⟩ with
  | error failure session => simp
  | ok b session =>
    obtain ⟨tree, cache⟩ := session
    simp [and_assoc, and_comm]

theorem hashFile_eq_ok {path : Path} {hash : String} {files left : FileTree} :
    hashFile path files = .ok hash left ↔
      (∃ content, files.node? path = some (.file content) ∧ hash = (Sha256.digest content).toHex) ∧
        left = files := by
  unfold hashFile
  rw [state_bind_eq_ok]
  constructor
  · rintro ⟨content, between, ran, made⟩
    obtain ⟨found, rfl⟩ := Files.read_ok_iff.mp ran
    cases made
    exact ⟨⟨content, found, rfl⟩, rfl⟩
  · rintro ⟨⟨content, found, rfl⟩, rfl⟩
    exact ⟨content, left, Files.read_ok_iff.mpr ⟨found, rfl⟩, rfl⟩

variable {codecs : Codecs} {pool : WorkerPool} {recipe : Recipe} {arguments : ScaleArguments}
  {config : Config} {files after : FileTree} {outcome : Report.Outcome}

theorem render_eq_ok {derivative : Derivative} :
    render codecs pool recipe files = .ok derivative after ↔
      ∃ content file, files.node? recipe.source = some (.file content) ∧
        recipe.Makes codecs content derivative file ∧
        Files.write recipe.output file files = .ok () after :=
  onFiles_eq_ok.trans derive_eq_ok

/-- A run through the cache makes its directory, hashes the source, and either serves a hit
or makes the derivative and stores it. -/
theorem renderCached_ok {dir : Path} {stats : CacheStats}
    (ran : renderCached codecs pool recipe dir files = .ok (outcome, stats) after) :
    ∃ made content cache, Files.makePath dir files = .ok () made ∧
      cache.dir = dir ∧ cache.manifest = Manifest.load made dir ∧
      made.node? recipe.source = some (.file content) ∧
      ((∃ hit left, outcome = .cached hit.size ∧
          Cache.restore (Sha256.digest content).toHex recipe.hash recipe.output ⟨made, cache⟩ =
            .ok (some hit) ⟨after, left⟩) ∨
        ∃ derivative rendered counted stored left, outcome = .rendered derivative ∧
          counted.dir = dir ∧ counted.manifest = cache.manifest ∧
          render codecs pool recipe made = .ok derivative rendered ∧
          Cache.store (Sha256.digest content).toHex recipe.hash recipe.output derivative.size
            ⟨rendered, counted⟩ = .ok stored ⟨after, left⟩) := by
  obtain ⟨cache, made, opened, ran⟩ := state_bind_eq_ok.mp ran
  have opened := onFiles_eq_ok.mp opened
  rw [Cache.open_eq] at opened
  cases making : Files.makePath dir files with
  | error failure left =>
    rw [making] at opened
    cases opened
  | ok _ left =>
    rw [making] at opened
    cases opened
    obtain ⟨hash, between, hashed, rest⟩ := state_bind_eq_ok.mp ran
    obtain ⟨⟨content, found, rfl⟩, rfl⟩ := hashFile_eq_ok.mp (onFiles_eq_ok.mp hashed)
    obtain ⟨⟨hit, counted⟩, restored, task, last⟩ := state_bind_eq_ok.mp rest
    have served := onCache_eq_ok.mp task
    refine ⟨between, content, { dir, manifest := .load between dir }, rfl, rfl, rfl, found, ?_⟩
    cases hit with
    | some hit =>
      cases last
      exact .inl ⟨hit, _, rfl, served⟩
    | none =>
      obtain ⟨derivative, rendered, derived, last⟩ := state_bind_eq_ok.mp last
      obtain ⟨⟨stored, kept⟩, left, deposit, last⟩ := state_bind_eq_ok.mp last
      cases last
      obtain ⟨rfl, counts, same⟩ := Cache.restore_none served
      exact .inr ⟨derivative, rendered, counted, stored, kept, rfl, counts, same, derived,
        onCache_eq_ok.mp deposit⟩

def usesCache (arguments : ScaleArguments) (config : Config) : Bool :=
  config.cacheEnabled && !arguments.noCache

theorem scale_eq (codecs : Codecs) (pool : WorkerPool) (arguments : ScaleArguments) (config : Config) :
    scale codecs pool arguments config = do
      let recipe ← ofExcept .arguments (arguments.recipe config)
      if usesCache arguments config then
        let (outcome, stats) ← renderCached codecs pool recipe config.cacheDirectory
        return (outcome, some stats)
      else return (.rendered (← render codecs pool recipe), none) := by
  unfold scale usesCache
  cases config.cacheEnabled <;> cases arguments.noCache <;> rfl

theorem scale_cached_ok {stats : Option CacheStats} (uses : usesCache arguments config = true)
    (ran : scale codecs pool arguments config files = .ok (outcome, stats) after) :
    ∃ recipe counts, arguments.recipe config = .ok recipe ∧
      renderCached codecs pool recipe config.cacheDirectory files = .ok (outcome, counts) after := by
  rw [scale_eq] at ran
  simp only [uses, if_true] at ran
  obtain ⟨recipe, between, made, rest⟩ := state_bind_eq_ok.mp ran
  obtain ⟨given, rfl⟩ := ofExcept_eq_ok.mp made
  obtain ⟨⟨shown, counts⟩, left, cached, last⟩ := state_bind_eq_ok.mp rest
  cases last
  exact ⟨recipe, counts, given, cached⟩

section Cached

variable {made : FileTree} {cache counted : Cache} {content : Bytes}

theorem scale_of_hit {hit : CacheHit} (uses : usesCache arguments config = true)
    (given : arguments.recipe config = .ok recipe)
    (opened : Cache.open config.cacheDirectory files = .ok cache made)
    (found : made.node? recipe.source = some (.file content))
    (served : Cache.restore (Sha256.digest content).toHex recipe.hash recipe.output ⟨made, cache⟩ =
      .ok (some hit) ⟨after, counted⟩) :
    scale codecs pool arguments config files = .ok (.cached hit.size, some counted.stats) after := by
  have hashed := hashFile_eq_ok.mpr ⟨⟨content, found, rfl⟩, rfl⟩
  simp only [scale_eq, uses, if_true, renderCached, ofExcept, given, bind, EStateM.bind,
    onFiles, opened, hashed, onCache, served, pure, EStateM.pure]

theorem scale_of_miss {derivative : Derivative} {left : FileTree} {stored : Path} {kept : Cache}
    (uses : usesCache arguments config = true) (given : arguments.recipe config = .ok recipe)
    (opened : Cache.open config.cacheDirectory files = .ok cache made)
    (found : made.node? recipe.source = some (.file content))
    (missed : Cache.restore (Sha256.digest content).toHex recipe.hash recipe.output ⟨made, cache⟩ =
      .ok none ⟨made, counted⟩)
    (rendered : render codecs pool recipe made = .ok derivative left)
    (deposited : Cache.store (Sha256.digest content).toHex recipe.hash recipe.output
      derivative.size ⟨left, counted⟩ = .ok stored ⟨after, kept⟩) :
    scale codecs pool arguments config files =
      .ok (.rendered derivative, some kept.stats) after := by
  have hashed := hashFile_eq_ok.mpr ⟨⟨content, found, rfl⟩, rfl⟩
  simp only [scale_eq, uses, if_true, renderCached, ofExcept, given, bind, EStateM.bind,
    onFiles, opened, hashed, onCache, missed, rendered, deposited, pure, EStateM.pure]

end Cached

/-- What the arguments come to: the recipe that they stand for makes this derivative and this
content of the output from the source. -/
def Comes (codecs : Codecs) (arguments : ScaleArguments) (config : Config) (files : FileTree)
    (derivative : Derivative) (file : Bytes) : Prop :=
  ∃ recipe content, arguments.recipe config = .ok recipe ∧
    files.node? arguments.input = some (.file content) ∧
    recipe.Makes codecs content derivative file

/-- More directories make no difference to what arguments come to. -/
theorem Comes.unique {base : FileTree} {derivative other : Derivative} {file also : Bytes}
    (comes : Comes codecs arguments config files derivative file) (grows : files.Grows base)
    (again : Comes codecs arguments config base other also) : derivative = other ∧ file = also := by
  obtain ⟨recipe, content, given, found, makes⟩ := comes
  obtain ⟨recipe', content', given', found', makes'⟩ := again
  cases given.symm.trans given'
  cases (grows.node? found).symm.trans found'
  exact makes.unique makes'

/-- A run without the cache succeeds, with any pool, exactly if its arguments come to
something that can be written. -/
theorem scale_uncached_eq_ok {stats : Option CacheStats} (skips : usesCache arguments config = false) :
    scale codecs pool arguments config files = .ok (outcome, stats) after ↔
      ∃ derivative file, Comes codecs arguments config files derivative file ∧
        Files.write arguments.output file files = .ok () after ∧
        outcome = .rendered derivative ∧ stats = none := by
  rw [scale_eq]
  simp only [skips, Bool.false_eq_true, if_false]
  constructor
  · intro ran
    obtain ⟨recipe, between, made, rest⟩ := state_bind_eq_ok.mp ran
    obtain ⟨given, rfl⟩ := ofExcept_eq_ok.mp made
    obtain ⟨derivative, left, rendered, last⟩ := state_bind_eq_ok.mp rest
    obtain ⟨content, file, found, makes, written⟩ := render_eq_ok.mp rendered
    obtain ⟨input, output⟩ := ScaleArguments.recipe_paths given
    cases last
    exact ⟨derivative, file, ⟨recipe, content, given, input ▸ found, makes⟩, output ▸ written,
      rfl, rfl⟩
  · rintro ⟨derivative, file, ⟨recipe, content, given, found, makes⟩, written, rfl, rfl⟩
    obtain ⟨input, output⟩ := ScaleArguments.recipe_paths given
    refine state_bind_eq_ok.mpr ⟨recipe, files, ofExcept_eq_ok.mpr ⟨given, rfl⟩, ?_⟩
    refine state_bind_eq_ok.mpr ⟨derivative, after, render_eq_ok.mpr ?_, rfl⟩
    exact ⟨content, file, input ▸ found, makes, output ▸ written⟩

/-- The files as a run finds them once it has made its cache directory. -/
def prepared (arguments : ScaleArguments) (config : Config) (files : FileTree) : FileTree :=
  if usesCache arguments config then (Files.makePath config.cacheDirectory).after files else files

theorem grows_prepared (arguments : ScaleArguments) (config : Config) (files : FileTree) :
    files.Grows (prepared arguments config files) := by
  unfold prepared
  split
  · exact Files.Growing.makePath _ _
  · exact .refl files

/-- A run works on the cache directory at `place`, if on any. Its output is outside, and what
it hashes is among `hashed`. -/
structure Shares (place : Place) (hashed : Set Bytes) (arguments : ScaleArguments) (config : Config)
    (files : FileTree) : Prop where
  inRange : arguments.InRange
  outside : ¬ Cache.Inside place files.here arguments.output
  directory : usesCache arguments config →
    FileTree.directory files.here config.cacheDirectory = place
  source : usesCache arguments config → ∀ content,
    (prepared arguments config files).node? arguments.input = some (.file content) →
      content ∈ hashed
  key : usesCache arguments config → ∀ recipe, arguments.recipe config = .ok recipe →
    recipe.keyBytes ∈ hashed

/-- The same files are inside the directory at `place`. -/
def SameInside (place : Place) (files others : FileTree) : Prop :=
  ∀ inner ≠ [], ∀ content, others.get? (place ++ inner) = some (.file content) ↔
    files.get? (place ++ inner) = some (.file content)

/-- The files after runs that share the cache directory at `place`, which has no manifest at
first. Between the runs all that is outside may change. -/
inductive Runs (codecs : Codecs) (place : Place) (hashed : Set Bytes) : FileTree → Prop
  | start {files : FileTree}
      (fresh : ∀ content, files.get? (place ++ [Manifest.fileName]) ≠ some (.file content)) :
      Runs codecs place hashed files
  | edited {files others : FileTree} (runs : Runs codecs place hashed files)
      (same : SameInside place files others) : Runs codecs place hashed others
  | scaled {files after : FileTree} {pool : WorkerPool} {arguments : ScaleArguments}
      {config : Config} {outcome : Report.Outcome} {stats : Option CacheStats}
      (runs : Runs codecs place hashed files) (shares : Shares place hashed arguments config files)
      (ran : scale codecs pool arguments config files = .ok (outcome, stats) after) :
      Runs codecs place hashed after

end Program

end ImageDerivative
