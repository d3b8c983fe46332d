import ImageDerivative.Container.Gif
import ImageDerivative.Container.Jp2
import ImageDerivative.Container.Jpeg
import ImageDerivative.Container.LazyReader

/-! A lazy reader is one cached parse for each stream that is bound to it. After any calls
it is in one of three states: nothing is bound; a stream is bound and has not been touched;
or the stream stands where its only parse left it, and the outcome is known. Binding leads
to the second state, whatever was known before, and a question to the third. -/
namespace ImageDerivative.LazyReader

inductive Call (ρ : Type) : Type 1 where
  | bind (stream : Cursor)
  | metadata
  | get {α : Type} (field : ρ → α)

namespace Call

variable {ρ : Type}

/-- The call asks for the record or a part of it. -/
def Asks : Call ρ → Prop
  | bind _ => False
  | metadata | get _ => True

def leave (parse : Read MetadataError ρ) (reader : LazyReader ρ) : Call ρ → LazyReader ρ
  | bind stream => reader.bind stream
  | metadata => (reader.metadata parse).2
  | get field => (reader.get parse field).2

end Call

variable {ρ : Type} (parse : Read MetadataError ρ)

def after (calls : List (Call ρ)) : LazyReader ρ := calls.foldl (Call.leave parse) {}

/-- What a parse from where the stream stands comes to. -/
def outcome (stream : Cursor) : Except MetadataError ρ :=
  match parse stream with
  | .ok record _ => .ok record
  | .error error _ => .error error

/-- Where that parse leaves the stream. -/
def parsedTo (stream : Cursor) : Cursor :=
  match parse stream with
  | .ok _ left => left
  | .error _ left => left

def fresh (stream : Cursor) : LazyReader ρ := { stream := some stream }

def settled (stream : Cursor) : LazyReader ρ where
  stream := some (parsedTo parse stream)
  progress := match outcome parse stream with
    | .ok record => .parsed record
    | .error error => .failed error
  passes := 1

theorem metadata_empty : ({} : LazyReader ρ).metadata parse = (.error .sourceNotSet, {}) := rfl

theorem metadata_fresh (stream : Cursor) :
    (fresh stream).metadata parse = (outcome parse stream, settled parse stream) := by
  simp only [metadata, fresh, ensure, settled, outcome, parsedTo]
  cases parse stream with
  | ok record left => rfl
  | error error left => rfl

/-- What is known is answered without a parser: any other one would do. -/
theorem metadata_settled (stream : Cursor) (other : Read MetadataError ρ) :
    (settled parse stream).metadata other = (outcome parse stream, settled parse stream) := by
  simp only [metadata, settled, ensure]
  cases outcome parse stream with
  | ok record => rfl
  | error error => rfl

theorem leave_of_metadata {reader left : LazyReader ρ} {answer : Except MetadataError ρ}
    (asked : reader.metadata parse = (answer, left)) {call : Call ρ} (asks : call.Asks) :
    call.leave parse reader = left := by
  cases call with
  | bind stream => exact asks.elim
  | metadata => rw [Call.leave, asked]
  | get field => rw [Call.leave, get, asked]

theorem foldl_fixed {reader : LazyReader ρ} {answer : Except MetadataError ρ}
    (asked : reader.metadata parse = (answer, reader)) {calls : List (Call ρ)}
    (asks : ∀ call ∈ calls, call.Asks) : calls.foldl (Call.leave parse) reader = reader := by
  induction calls with
  | nil => rfl
  | cons call rest ih =>
    obtain ⟨first, others⟩ := List.forall_mem_cons.mp asks
    rw [List.foldl_cons, leave_of_metadata parse asked first]
    exact ih others

theorem after_unbound {calls : List (Call ρ)} (asks : ∀ call ∈ calls, call.Asks) :
    after parse calls = {} :=
  foldl_fixed parse (metadata_empty parse) asks

theorem after_bind (before since : List (Call ρ)) (stream : Cursor) :
    after parse (before ++ .bind stream :: since) = since.foldl (Call.leave parse) (fresh stream) := by
  rw [after, List.foldl_append, List.foldl_cons]
  rfl

theorem after_asked (before : List (Call ρ)) {since : List (Call ρ)} (stream : Cursor)
    (asks : ∀ call ∈ since, call.Asks) (some : since ≠ []) :
    after parse (before ++ .bind stream :: since) = settled parse stream := by
  rw [after_bind]
  cases since with
  | nil => exact absurd rfl some
  | cons call rest =>
    obtain ⟨first, others⟩ := List.forall_mem_cons.mp asks
    rw [List.foldl_cons, leave_of_metadata parse (metadata_fresh parse stream) first]
    exact foldl_fixed parse (metadata_settled parse stream parse) others

/-- The reader is one cached parse for each binding. -/
structure CachesOneParse : Prop where
  /-- Before a stream is bound there is nothing to answer from. -/
  unbound {calls : List (Call ρ)} : (∀ call ∈ calls, call.Asks) →
    ((after parse calls).metadata parse).1 = .error .sourceNotSet ∧
      ∀ {α : Type} (field : ρ → α),
        ((after parse calls).get parse field).1 = .error .sourceNotSet
  /-- Every answer is that of one parse of the stream bound last, from where it stood when
  it was bound. -/
  answers {before since : List (Call ρ)} {stream : Cursor} : (∀ call ∈ since, call.Asks) →
    ((after parse (before ++ .bind stream :: since)).metadata parse).1 = outcome parse stream ∧
      ∀ {α : Type} (field : ρ → α),
        ((after parse (before ++ .bind stream :: since)).get parse field).1 =
          (outcome parse stream).map field
  /-- Binding does not touch the stream, and nothing is left of the one before. -/
  bound {before : List (Call ρ)} {stream : Cursor} :
    after parse (before ++ [.bind stream]) = { stream := some stream }
  /-- The first question parses, and leaves the stream where the parse does. -/
  parsed {before since : List (Call ρ)} {stream : Cursor} : (∀ call ∈ since, call.Asks) →
    since ≠ [] →
    (after parse (before ++ .bind stream :: since)).stream = some (parsedTo parse stream) ∧
      (after parse (before ++ .bind stream :: since)).passes = 1
  /-- No later question touches the stream: with whatever parser it is asked, the reader
  answers the same and stays as it is. -/
  untouched {before since : List (Call ρ)} {stream : Cursor} : (∀ call ∈ since, call.Asks) →
    since ≠ [] → ∀ other : Read MetadataError ρ,
    (after parse (before ++ .bind stream :: since)).metadata other =
        (outcome parse stream, after parse (before ++ .bind stream :: since)) ∧
      ∀ {α : Type} (field : ρ → α),
        (after parse (before ++ .bind stream :: since)).get other field =
          ((outcome parse stream).map field, after parse (before ++ .bind stream :: since))

theorem cachesOneParse : CachesOneParse parse where
  unbound asks := by
    rw [after_unbound parse asks]
    exact ⟨rfl, fun field => rfl⟩
  answers {before since stream} asks := by
    have answer : ((after parse (before ++ .bind stream :: since)).metadata parse).1 =
        outcome parse stream := by
      cases since with
      | nil => rw [after_bind, List.foldl_nil, metadata_fresh]
      | cons call rest =>
        rw [after_asked parse before stream asks (List.cons_ne_nil _ _), metadata_settled]
    exact ⟨answer, fun field => congrArg (Except.map field) answer⟩
  bound := after_bind parse _ _ _
  parsed asks some := by
    rw [after_asked parse _ _ asks some]
    exact ⟨rfl, rfl⟩
  untouched {before since stream} asks some other := by
    rw [after_asked parse before stream asks some]
    have answer := metadata_settled parse stream other
    exact ⟨answer, fun field => by rw [get, answer]⟩

/-- The readers of all three containers are lazy in this way. -/
theorem containers_cacheOneParse :
    CachesOneParse Gif.read ∧ CachesOneParse Jpeg.read ∧ CachesOneParse Jp2.read :=
  ⟨cachesOneParse Gif.read, cachesOneParse Jpeg.read, cachesOneParse Jp2.read⟩

end ImageDerivative.LazyReader
