import ImageDerivative.Proofs.CommandLine.Numbers

/-! What the key of a recipe tells. Keys tell recipes apart as far as their numbers are in range,
and every recipe of a command line has such numbers. -/
namespace ImageDerivative

theorem CommandLine.inRange_of_parse {words : List String} {invocation : Invocation}
    {arguments : ScaleArguments} {config : Config} {recipe : Recipe}
    (read : parse words = .ok invocation) (scales : invocation.command = .scale arguments)
    (made : arguments.recipe config = .ok recipe) : recipe.InRange :=
  ScaleArguments.inRange_recipe (parse_inRange read scales) made

namespace Recipe

/-- Two recipes have one key exactly if they agree in all that shapes a derivative, numbers
compared by their bits, and then the same raster is encoded, in the same format and with the
same quality. -/
theorem keyBytes_eq_iff :
    (∀ a b : Recipe, a.InRange → b.InRange →
      (a.keyBytes = b.keyBytes ↔ a.Agree b) ∧
      (a.keyBytes = b.keyBytes → ∀ source pool handed,
        derive (recorder source) a pool handed = derive (recorder source) b pool handed)) ∧
    ∀ words invocation arguments config recipe, CommandLine.parse words = .ok invocation →
      invocation.command = .scale arguments → arguments.recipe config = .ok recipe →
        recipe.InRange := by
  refine ⟨fun a b small short => ⟨agree_iff small short, fun same source pool handed => ?_⟩, ?_⟩
  · exact derive_recorder_eq (agree_of_keyBytes_eq small short same) source pool handed
  · intro words invocation arguments config recipe read scales made
    exact CommandLine.inRange_of_parse read scales made

/-- The number in its mode holds the bytes that separate parts and begin modes. -/
def thumbnail : Recipe where
  source := "scans/1.tif"
  output := "out/1.JPG"
  mode := .width 0x00770000
  kernel := some .bicubic
  policy := {}
  sharpen := .ofFloat 0.5
  linear := true
  quality := .standard

/-- The same thumbnail of another file under another name, where the policy does not count. -/
def renamed : Recipe :=
  { thumbnail with
    source := "2.gif"
    output := "2.jpg"
    policy := { downscale := .lanczos3 } }

/-- The thumbnail sharpened by a NaN of these bits. -/
def notANumber (bits : UInt32) : Recipe := { thumbnail with sharpen := ⟨bits⟩ }

theorem keyBytes_eq_iff_renamed :
    (thumbnail.InRange ∧ renamed.InRange ∧ thumbnail.keyBytes = renamed.keyBytes ∧
      ∀ source pool handed, derive (recorder source) thumbnail pool handed =
        derive (recorder source) renamed pool handed) ∧
    (notANumber 0x7fc00000).keyBytes ≠ (notANumber 0x7fc00001).keyBytes ∧
    ∃ invocation arguments recipe,
      CommandLine.parse ["scale", "1.tif", "1.jpg", "--width", "7"] = .ok invocation ∧
      invocation.command = .scale arguments ∧ arguments.recipe {} = .ok recipe ∧
      recipe.mode = .width 7 ∧ recipe.InRange := by
  have word : 0x00770000 < 0x100000000 := by decide
  have small : thumbnail.InRange := ⟨word, by decide⟩
  have short : renamed.InRange := ⟨word, by decide⟩
  have capital : Path.lowerExtension "out/1.JPG" = "jpg" := by cbv
  have lower : Path.lowerExtension "2.jpg" = "jpg" := by cbv
  have extension : Path.lowerExtension thumbnail.output = Path.lowerExtension renamed.output :=
    capital.trans lower.symm
  have explicit : thumbnail.kernel ≠ none := Option.some_ne_none _
  have agree : thumbnail.Agree renamed :=
    ⟨rfl, rfl, fun absent => absurd absent explicit, rfl, rfl, rfl, extension⟩
  obtain ⟨keys, derivations⟩ := keyBytes_eq_iff.1 thumbnail renamed small short
  refine ⟨⟨small, short, keys.mpr agree, derivations (keys.mpr agree)⟩, fun same => ?_, ?_⟩
  · have inRange (bits : UInt32) : (notANumber bits).InRange := ⟨word, small.quality⟩
    have equal := ((keyBytes_eq_iff.1 _ _ (inRange _) (inRange _)).1.mp same).sharpen
    exact absurd equal (by decide)
  · have inRange := keyBytes_eq_iff.2 ["scale", "1.tif", "1.jpg", "--width", "7"] _ _ {} _ rfl rfl rfl
    exact ⟨_, _, _, rfl, rfl, rfl, rfl, inRange⟩

end Recipe

end ImageDerivative
