import ImageDerivative.CommandLine.Form
import ImageDerivative.Decimal.Reader
import ImageDerivative.Files.Path
import ImageDerivative.Imaging.Kernel

/-! The commands of the program and what their arguments say. -/
namespace ImageDerivative.CommandLine

structure ScaleArguments where
  input : Path
  output : Path
  width : Option Nat := none
  height : Option Nat := none
  percent : Option Float := none
  /-- Width and height are taken as they are. -/
  exact : Bool := false
  kernel : Option Kernel := none
  sharpen : Option Float32 := none
  quality : Option Nat := none
  linear : Bool := false
  noCache : Bool := false

inductive Command where
  | scale (arguments : ScaleArguments)
  | info (input : Path) (json : Bool)
  | filters
  | genConfig

structure Invocation where
  config : Option Path
  logLevel : Option String
  command : Command

/-- What has been understood of the arguments so far, whichever command they are of. -/
structure Draft where
  config : Option Path := none
  logLevel : Option String := none
  paths : List Path := []
  json : Bool := false
  width : Option Nat := none
  height : Option Nat := none
  percent : Option Float := none
  exact : Bool := false
  kernel : Option Kernel := none
  sharpen : Option Float32 := none
  quality : Option Nat := none
  linear : Bool := false
  noCache : Bool := false

/-- A path is not empty. -/
def path? (text : String) : Option Path := if text.isEmpty then none else some text

/-- A whole number of 32 bits. A minus sign may stand before zero. -/
def word? (text : String) : Option Nat :=
  let (negative, digits) := NumberText.splitSign text.toList
  if digits.isEmpty || !digits.all Char.isDigit then none
  else
    let n := NumberText.digitsValue digits
    if n ≥ 0x100000000 ∨ (negative ∧ n ≠ 0) then none else some n

def double? (text : String) : Option Float := (NumberText.parse? text).map NumberText.toDouble

def single? (text : String) : Option Float32 := (NumberText.parse? text).map NumberText.toSingle

def kernel? (text : String) : Option Kernel := (Kernel.parse text).toOption

def once {α : Type} (current : Draft → Option α) (parse? : String → Option α)
    (update : Draft → α → Draft) (text : String) (draft : Draft) : Option Draft :=
  if (current draft).isSome then none else (parse? text).map (update draft)

def raised (current : Draft → Bool) (update : Draft → Draft) (draft : Draft) : Option Draft :=
  if current draft then none else some (update draft)

def pathPlace (text : String) (draft : Draft) : Option Draft :=
  (path? text).map fun path => { draft with paths := draft.paths ++ [path] }

/-- The options that may stand before or behind the name of the command. -/
def globalOptions : List (String × (String → Draft → Option Draft)) := [
  ("config", once Draft.config path? fun d v => { d with config := some v }),
  ("log-level", once Draft.logLevel some fun d v => { d with logLevel := some v })]

def scaleForm : Form Draft := {
  options := globalOptions ++ [
    ("width", once Draft.width word? fun d v => { d with width := some v }),
    ("height", once Draft.height word? fun d v => { d with height := some v }),
    ("percent", once Draft.percent double? fun d v => { d with percent := some v }),
    ("filter", once Draft.kernel kernel? fun d v => { d with kernel := some v }),
    ("sharpen", once Draft.sharpen single? fun d v => { d with sharpen := some v }),
    ("quality", once Draft.quality word? fun d v => { d with quality := some v })]
  flags := [
    ("exact", raised Draft.exact fun d => { d with exact := true }),
    ("linear", raised Draft.linear fun d => { d with linear := true }),
    ("no-cache", raised Draft.noCache fun d => { d with noCache := true })]
  places := [pathPlace, pathPlace] }

def infoForm : Form Draft := {
  options := globalOptions
  flags := [("json", raised Draft.json fun d => { d with json := true })]
  places := [pathPlace] }

def plainForm : Form Draft := { options := globalOptions }

/-- A percentage stands alone; an exact size has both axes. -/
def scaleArguments? (draft : Draft) : Option ScaleArguments :=
  match draft.paths with
  | [input, output] =>
    if draft.percent.isSome ∧ (draft.width.isSome ∨ draft.height.isSome) then none
    else if draft.exact ∧ (draft.width.isNone ∨ draft.height.isNone) then none
    else some {
      input, output, width := draft.width, height := draft.height, percent := draft.percent
      exact := draft.exact, kernel := draft.kernel, sharpen := draft.sharpen
      quality := draft.quality, linear := draft.linear, noCache := draft.noCache }
  | _ => none

def infoOf? (draft : Draft) : Option Command :=
  match draft.paths with
  | [input] => some (.info input draft.json)
  | _ => none

/-- A command by its name: how its arguments are read and what they amount to. -/
structure Entry where
  name : String
  form : Form Draft
  command? : Draft → Option Command

def entries : List Entry := [
  ⟨"scale", scaleForm, fun draft => (scaleArguments? draft).map .scale⟩,
  ⟨"info", infoForm, infoOf?⟩,
  ⟨"filters", plainForm, fun _ => some .filters⟩,
  ⟨"gen-config", plainForm, fun _ => some .genConfig⟩]

def helpName : String := "help"

/-- The program itself: options for every command, then the name of one. -/
def programForm : Form Draft := {
  options := globalOptions
  branches := helpName :: entries.map Entry.name
  hasVersion := true }

/-- Help is there for the program, and for each command by its name. -/
def helpFor : List String → Stop
  | [] => .help
  | [name] => if programForm.branches.contains name then .help else .usage
  | _ => .usage

/-- What is given behind the name of the command goes before what is given in front. -/
def invocation (front behind : Draft) (command : Command) : Invocation := {
  config := behind.config.or front.config
  logLevel := behind.logLevel.or front.logLevel
  command }

/-- Reads the arguments of the program. What is pending in front of the name is done
after the arguments behind it have been read. -/
def parse (arguments : List String) : Except Stop Invocation := do
  let (front, branch) ← programForm.read (programForm.start {}) arguments
  match branch with
  | none => throw .usage
  | some (name, rest) =>
    if name = helpName then throw (helpFor rest)
    match entries.find? fun entry => entry.name = name with
    | none => throw .usage
    | some entry =>
      let behind ← entry.form.parse {} rest
      let front ← front.close
      match entry.command? behind with
      | some command => return invocation front.draft behind command
      | none => throw .usage

end ImageDerivative.CommandLine
