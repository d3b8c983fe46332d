/-! What a command understands of its arguments: flags, options with a value, and
places that are filled in order. Options are spelled out, with the value behind an
equals sign or in the next argument; an argument that begins with a dash is never
a value or a place, unless it stands behind a lone double dash. -/
namespace ImageDerivative.CommandLine

/-- Why arguments were not turned into a command. -/
inductive Stop where
  | usage
  | help
  | version
  deriving DecidableEq, Repr

/-- Every entry puts what it is given into a draft, or refuses it. -/
structure Form (σ : Type) where
  flags : List (String × (σ → Option σ)) := []
  options : List (String × (String → σ → Option σ)) := []
  places : List (String → σ → Option σ) := []
  /-- Names that end the arguments of this form and begin those of another one. -/
  branches : List String := []
  hasVersion : Bool := false

/-- What the last argument has left to do. A value is not looked at before the next
argument is understood. -/
inductive Pending (σ : Type) where
  | nothing
  | value (put : String → σ → Option σ)
  | change (put : σ → Option σ)

structure Reading (σ : Type) where
  draft : σ
  pending : Pending σ := .nothing
  /-- The places that are still free. -/
  places : List (String → σ → Option σ) := []

namespace Reading

variable {σ : Type}

/-- A refusal is a wrong usage. -/
def accept (reading : Reading σ) (change : σ → Option σ) : Except Stop (Reading σ) :=
  match change reading.draft with
  | some draft => .ok { reading with draft, pending := .nothing }
  | none => .error .usage

def close (reading : Reading σ) : Except Stop (Reading σ) :=
  match reading.pending with
  | .nothing => .ok reading
  | .value _ => .error .usage
  | .change put => reading.accept put

def place (reading : Reading σ) (argument : String) : Except Stop (Reading σ) := do
  let reading ← reading.close
  match reading.places with
  | [] => throw .usage
  | put :: places => return { reading with places, pending := .change (put argument) }

def placeAll : Reading σ → List String → Except Stop (Reading σ)
  | reading, [] => .ok reading
  | reading, argument :: rest => do placeAll (← reading.place argument) rest

/-- Stops for a page that was asked for, unless something before it is wrong. -/
def stop (reading : Reading σ) (page : Stop) : Except Stop (Reading σ) := do
  let _ ← reading.close
  throw page

end Reading

namespace Form

variable {σ : Type}

def lookup {α : Type} (name : String) (entries : List (String × α)) : Option α :=
  (entries.find? fun entry => entry.1 = name).map Prod.snd

/-- An option by its name. A flag takes no value. -/
def readOption (form : Form σ) (reading : Reading σ) (name : String) (value : Option String) :
    Except Stop (Reading σ) := do
  match lookup name form.options, value with
  | some put, some value => (← reading.close).accept (put value)
  | some put, none => return { ← reading.close with pending := .value put }
  | none, some _ => throw .usage
  | none, none =>
    if name = "help" then reading.stop .help
    else if form.hasVersion ∧ name = "version" then reading.stop .version
    else
      match lookup name form.flags with
      | some put => (← reading.close).accept put
      | none => throw .usage

/-- The name and, behind an equals sign, the value. -/
def splitOption (cs : List Char) : String × Option String :=
  let (name, rest) := cs.span (· ≠ '=')
  (String.ofList name, match rest with
    | _ :: value => some (String.ofList value)
    | [] => none)

/-- One argument that is neither a branch nor the double dash. -/
def readArgument (form : Form σ) (reading : Reading σ) (argument : String) :
    Except Stop (Reading σ) :=
  match argument.toList with
  | '-' :: '-' :: cs =>
    let (name, value) := splitOption cs
    form.readOption reading name value
  | '-' :: 'h' :: _ => reading.stop .help
  | '-' :: 'V' :: _ => if form.hasVersion then reading.stop .version else .error .usage
  | '-' :: _ :: _ => .error .usage
  | _ =>
    match reading.pending with
    | .value put => .ok { reading with pending := .change (put argument) }
    | _ => reading.place argument

/-- A name is no branch where the value of an option has to stand. -/
def branchesAt (form : Form σ) (reading : Reading σ) (argument : String) : Bool :=
  match reading.pending with
  | .value _ => false
  | _ => form.branches.contains argument

/-- Reads up to a branch, which is answered with its arguments, or to the end. The
last thing may still be pending. -/
def read (form : Form σ) : Reading σ → List String →
    Except Stop (Reading σ × Option (String × List String))
  | reading, [] => .ok (reading, none)
  | reading, argument :: rest =>
    if form.branchesAt reading argument then .ok (reading, some (argument, rest))
    else if argument = "--" then do return (← reading.placeAll rest, none)
    else do form.read (← form.readArgument reading argument) rest

/-- The reading of arguments begins with an empty draft and all places free. -/
def start (form : Form σ) (draft : σ) : Reading σ := { draft, places := form.places }

def parse (form : Form σ) (draft : σ) (arguments : List String) : Except Stop σ := do
  let (reading, _) ← form.read (form.start draft) arguments
  return (← reading.close).draft

end Form

end ImageDerivative.CommandLine
