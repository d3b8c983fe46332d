import ImageDerivative.Container.Error

/-! A reader that parses the stream it is bound to when it is first asked, and
answers every later question from the outcome, be it a record or a failure. -/
namespace ImageDerivative

/-- How far a reader has come with the stream it is bound to. -/
inductive ParseState (ρ : Type) where
  | unparsed
  | parsed (record : ρ)
  | failed (error : MetadataError)

structure LazyReader (ρ : Type) where
  stream : Option Cursor := none
  progress : ParseState ρ := .unparsed
  /-- How many times the bound stream has been read. -/
  passes : Nat := 0

namespace LazyReader

/-- Binds a stream and forgets whatever was known of the one before. -/
def bind (_ : LazyReader ρ) (stream : Cursor) : LazyReader ρ := { stream := some stream }

/-- Reads the bound stream if that has not been done. -/
def ensure (parse : Read MetadataError ρ) (reader : LazyReader ρ) (stream : Cursor) :
    LazyReader ρ :=
  match reader.progress with
  | .unparsed =>
    match parse stream with
    | .ok record stream =>
      { stream := some stream, progress := .parsed record, passes := reader.passes + 1 }
    | .error error stream =>
      { stream := some stream, progress := .failed error, passes := reader.passes + 1 }
  | _ => reader

def metadata (parse : Read MetadataError ρ) (reader : LazyReader ρ) :
    Except MetadataError ρ × LazyReader ρ :=
  match reader.stream with
  | none => (.error .sourceNotSet, reader)
  | some stream =>
    let reader := reader.ensure parse stream
    match reader.progress with
    | .parsed record => (.ok record, reader)
    | .failed error => (.error error, reader)
    | .unparsed => (.error .sourceNotSet, reader)

def get (parse : Read MetadataError ρ) (field : ρ → α) (reader : LazyReader ρ) :
    Except MetadataError α × LazyReader ρ :=
  let (record, reader) := reader.metadata parse
  (record.map field, reader)

/-- Gives up the stream. -/
def release (reader : LazyReader ρ) : Option Cursor := reader.stream

end LazyReader

end ImageDerivative
