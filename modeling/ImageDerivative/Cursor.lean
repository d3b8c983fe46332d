import ImageDerivative.Bytes

/-! A position in a byte string. Reads move it forward. A skip is a seek: it may
leave the end behind, and the next read then fails. Marks remember positions and
nest. Every operation is a state transformer that keeps the moved cursor when it
fails, because where a failed read leaves the position is part of its meaning. -/
namespace ImageDerivative

/-- Why a read or a seek failed. -/
inductive ReadFailure where
  /-- The data ended inside a field of fixed width. -/
  | endOfField
  /-- The data ended inside a run of counted bytes. -/
  | endOfRun
  | skipTooLong
  | seekOutOfRange
  | noMark
  /-- A walk went on without moving forward. No walk of this library does. -/
  | stalled
  deriving DecidableEq, Repr

/-- Both ways in which the data can end too early. -/
def ReadFailure.isTruncation : ReadFailure → Bool
  | endOfField | endOfRun => true
  | _ => false

def ReadFailure.message : ReadFailure → String
  | endOfField => "failed to fill whole buffer"
  | endOfRun => "unexpected end of file"
  | skipTooLong => "skip length overflows"
  | seekOutOfRange => "invalid seek to a negative or overflowing position"
  | noMark => "reset without mark"
  | stalled => "no progress"

structure Cursor where
  data : Bytes
  /-- The number of bytes of `data`. -/
  size : Nat
  pos : Nat
  /-- The bytes from `pos` on. -/
  rest : Bytes
  marks : List Nat
  size_eq : size = data.length := by rfl
  rest_eq : rest = data.drop pos := by rfl

namespace Cursor

def ofBytes (data : Bytes) : Cursor where
  data := data
  size := data.length
  pos := 0
  rest := data
  marks := []

/-- How many bytes lie ahead; none when the position is at or past the end. -/
def remaining (c : Cursor) : Nat := c.size - c.pos

theorem length_rest (c : Cursor) : c.rest.length = c.remaining := by
  rw [c.rest_eq, List.length_drop, remaining, c.size_eq]

def forward (c : Cursor) (n : Nat) : Cursor where
  data := c.data
  size := c.size
  pos := c.pos + n
  rest := c.rest.drop n
  marks := c.marks
  size_eq := c.size_eq
  rest_eq := by rw [c.rest_eq, List.drop_drop]

def seek (c : Cursor) (pos : Nat) : Cursor where
  data := c.data
  size := c.size
  pos := pos
  rest := c.data.drop pos
  marks := c.marks
  size_eq := c.size_eq

def withMarks (c : Cursor) (marks : List Nat) : Cursor := { c with marks }

/-- At the end of the data, also when the position was past it. -/
def toEnd (c : Cursor) : Cursor := c.seek c.size

/-- Past the bytes there were; a position past the end stays. -/
def exhausted (c : Cursor) : Cursor := c.forward c.remaining

end Cursor

/-- A computation that reads from a cursor and may fail with an `ε`. -/
abbrev Read (ε : Type) := EStateM ε Cursor

/-- Runs `step` until it answers `.inr`, at most `bound` times. -/
def repeatUpTo {m : Type → Type} [Monad m] {α β : Type} (stalled : m β) (step : α → m (α ⊕ β)) :
    (bound : Nat) → α → m β
  | 0, _ => stalled
  | bound + 1, a => do
    match ← step a with
    | .inl next => repeatUpTo stalled step bound next
    | .inr result => pure result

namespace Read

def position : Read ε Nat := return (← get).pos

/-- The length of the data; the position stays. -/
def length : Read ε Nat := return (← get).size

def mark : Read ε Unit := modify fun c => c.withMarks (c.pos :: c.marks)

/-- Back to the most recent mark, which is forgotten. -/
def reset : Read ReadFailure Unit := do
  let c ← get
  match c.marks with
  | [] => throw .noMark
  | pos :: marks => set ((c.seek pos).withMarks marks)

def maxSkip : Nat := 0x7FFFFFFFFFFFFFFF

def maxPosition : Nat := 0xFFFFFFFFFFFFFFFF

def skip (n : Nat) : Read ReadFailure Unit := do
  let c ← get
  if n > maxSkip then throw .skipTooLong
  else if c.pos + n > maxPosition then throw .seekOutOfRange
  else set (c.forward n)

/-- A field of `width` bytes. When the data runs out, the position is left at its end. -/
def field (width : Nat) : Read ReadFailure Bytes := do
  let c ← get
  let bytes := c.rest.take width
  if bytes.length = width then
    set (c.forward width)
    return bytes
  else
    set c.toEnd
    throw .endOfField

def byte : Read ReadFailure UInt8 := do
  let c ← get
  match c.rest with
  | b :: _ =>
    set (c.forward 1)
    return b
  | [] =>
    set c.toEnd
    throw .endOfField

/-- A run of `count` bytes. When the data runs out, what there was has been read. -/
def run (count : Nat) : Read ReadFailure Bytes := do
  let c ← get
  if count ≤ c.remaining then
    set (c.forward count)
    return c.rest.take count
  else
    set c.exhausted
    throw .endOfRun

def littleEndian (width : Nat) : Read ReadFailure Nat :=
  return Bytes.ofLittleEndian (← field width)

def bigEndian (width : Nat) : Read ReadFailure Nat :=
  return Bytes.ofBigEndian (← field width)

/-- Repeats `step`, each turn of which has to use up a byte of what lies ahead. -/
def walk (step : α → Read ε (α ⊕ β)) (stalled : ε) (start : α) : Read ε β := do
  repeatUpTo (throw stalled) step ((← get).remaining + 1) start

/-- What a parser makes of a whole byte string, and where it stops. -/
def onBytes (read : Read ε α) (data : Bytes) : Except ε α × Nat :=
  match read (Cursor.ofBytes data) with
  | .ok a c => (.ok a, c.pos)
  | .error e c => (.error e, c.pos)

end Read

end ImageDerivative
