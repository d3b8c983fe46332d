import ImageDerivative.Container.Jp2
import ImageDerivative.Proofs.Container.Reads

/-! The boxes of a JP2 stream. Where a box lies follows from its length alone, so that
boxes tile a stream from its start on until one is the codestream or none begins before
the end. Contents that are kept have to be there; contents that are passed over may lie
past the end, and the walk then ends there as it would at the end. -/
namespace ImageDerivative.Jp2

/-- A box in a stream: where its contents begin, and where its length says they stop. -/
structure Box where
  type : Bytes
  content : Nat
  stop : Nat
  deriving DecidableEq, Repr

/-- Where the contents of the box at `start` begin and stop, if the length of the box
covers its header. -/
def extent? (data : Bytes) (start : Nat) : (length : Nat) → Option (Nat × Nat)
  | 0 => some (start + 8, data.length)
  | 1 => do
    let extended ← data.slice? (start + 8) 8
    if Bytes.ofBigEndian extended < 16 then none
    else some (start + 16, start + Bytes.ofBigEndian extended)
  | length => if length < 8 then none else some (start + 8, start + length)

/-- The box that begins at `start`, if all of its header is there. -/
def boxAt? (data : Bytes) (start : Nat) : Option Box := do
  let length ← data.slice? start 4
  let type ← data.slice? (start + 4) 4
  let (content, stop) ← extent? data start (Bytes.ofBigEndian length)
  return ⟨type, content, stop⟩

def uuidType : Bytes := Bytes.ofText "uuid"

def codestreamType : Bytes := Bytes.ofText "jp2c"

/-- The identifiers of boxes that are kept. -/
def keptUuids : List Bytes := [exifUuid, iptcUuid, xmpUuid]

namespace Box

/-- Where the contents begin, behind the identifier if there is one. -/
def body (box : Box) : Nat := if box.type = uuidType then box.content + 16 else box.content

def IsKept (data : Bytes) (box : Box) : Prop :=
  box.type = uuidType ∧ ∃ uuid ∈ keptUuids, data.slice? box.content 16 = some uuid

/-- The walk gets past the box: all of it is there if it is kept, else its body begins in
the stream and a seek leads to where it stops. -/
structure Passes (data : Bytes) (box : Box) : Prop where
  covered : box.body ≤ box.stop
  headed : box.body ≤ data.length
  kept : box.IsKept data → box.stop ≤ data.length
  skipped : ¬ box.IsKept data → box.stop - box.body ≤ Read.maxSkip ∧ box.stop ≤ Read.maxPosition

end Box

/-- Boxes other than the codestream from `start` on, each of which begins before the
end, the first at `start` and every other where the one before it stops. -/
inductive Tiled (data : Bytes) : (start : Nat) → List Box → (stop : Nat) → Prop where
  | nil : Tiled data start [] start
  | cons : start < data.length → boxAt? data start = some box → box.type ≠ codestreamType →
      Tiled data box.stop boxes stop → Tiled data start (box :: boxes) stop

/-- Boxes lead from `start` to the codestream. -/
def ReachesCodestream (data : Bytes) (start : Nat) : Prop :=
  ∃ boxes stop box, Tiled data start boxes stop ∧ stop < data.length ∧
    boxAt? data stop = some box ∧ box.type = codestreamType

theorem boxAt?_eq_some_iff {data : Bytes} {start : Nat} {box : Box} :
    boxAt? data start = some box ↔
      ∃ length, data.slice? start 4 = some length ∧ data.slice? (start + 4) 4 = some box.type ∧
        extent? data start (Bytes.ofBigEndian length) = some (box.content, box.stop) := by
  simp only [boxAt?, Option.bind_eq_bind, Option.bind_eq_some_iff, Option.pure_def,
    Option.some.injEq]
  constructor
  · rintro ⟨length, counted, type, typed, extent, found, rfl⟩
    exact ⟨length, counted, typed, found⟩
  · rintro ⟨length, counted, typed, found⟩
    exact ⟨length, counted, box.type, typed, _, found, rfl⟩

theorem extent?_bounds {data : Bytes} {start length content stop : Nat}
    (inside : start + 8 ≤ data.length) (found : extent? data start length = some (content, stop)) :
    start + 8 ≤ content ∧ content ≤ stop ∧ content ≤ data.length := by
  unfold extent? at found
  split at found
  · cases found
    exact ⟨Nat.le_refl _, inside, inside⟩
  · obtain ⟨extended, given, found⟩ := Option.bind_eq_some_iff.mp found
    obtain ⟨room, -⟩ := (Bytes.slice?_eq_some_iff (by decide)).mp given
    split at found
    · contradiction
    · cases found
      omega
  · split at found
    · contradiction
    · cases found
      omega

theorem boxAt?_bounds {data : Bytes} {start : Nat} {box : Box}
    (found : boxAt? data start = some box) :
    start + 8 ≤ box.content ∧ box.content ≤ box.stop ∧ box.content ≤ data.length := by
  obtain ⟨_, _, typed, extent⟩ := boxAt?_eq_some_iff.mp found
  obtain ⟨inside, -⟩ := (Bytes.slice?_eq_some_iff (by decide)).mp typed
  exact extent?_bounds inside extent

namespace Box
variable {data : Bytes} {box : Box}

theorem isKept_iff (identified : box.type = uuidType) {uuid : Bytes}
    (found : data.slice? box.content 16 = some uuid) : box.IsKept data ↔ uuid ∈ keptUuids := by
  constructor
  · rintro ⟨-, other, known, same⟩
    cases found.symm.trans same
    exact known
  · intro known
    exact ⟨identified, uuid, known, found⟩

theorem passes_identified (identified : box.type = uuidType) (headed : box.content ≤ box.stop) :
    box.Passes data ↔ 16 ≤ box.stop - box.content ∧
      ∃ uuid, data.slice? box.content 16 = some uuid ∧
        if uuid ∈ keptUuids then box.stop ≤ data.length
        else box.stop - box.content - 16 ≤ Read.maxSkip ∧ box.stop ≤ Read.maxPosition := by
  have body : box.body = box.content + 16 := if_pos identified
  constructor
  · rintro ⟨covered, headed, kept, skipped⟩
    rw [body] at covered headed skipped
    have found := (Bytes.slice?_eq_some_iff (by decide)).mpr ⟨headed, rfl⟩
    have known := isKept_iff identified found
    refine ⟨by omega, _, found, ?_⟩
    split
    · next listed => exact kept (known.mpr listed)
    · next other =>
      obtain ⟨near, inside⟩ := skipped fun keep => other (known.mp keep)
      exact ⟨by omega, inside⟩
  · rintro ⟨covered, uuid, found, within⟩
    obtain ⟨headed, -⟩ := (Bytes.slice?_eq_some_iff (by decide)).mp found
    have known := isKept_iff identified found
    refine ⟨by omega, by omega, fun keep => ?_, fun free => ?_⟩
    · rwa [if_pos (known.mp keep)] at within
    · rw [if_neg fun listed => free (known.mpr listed)] at within
      omega

theorem passes_plain (plain : box.type ≠ uuidType) (covered : box.content ≤ box.stop)
    (headed : box.content ≤ data.length) :
    box.Passes data ↔ box.stop - box.content ≤ Read.maxSkip ∧ box.stop ≤ Read.maxPosition := by
  have body : box.body = box.content := if_neg plain
  have free : ¬ box.IsKept data := fun kept => plain kept.1
  constructor
  · intro passes
    have skipped := passes.skipped free
    rwa [body] at skipped
  · intro skipped
    refine ⟨?_, ?_, fun kept => absurd kept free, fun _ => ?_⟩
    · rwa [body]
    · rwa [body]
    · rwa [body]

end Box

theorem Tiled.bounds {data : Bytes} {start stop : Nat} {boxes : List Box}
    (tiled : Tiled data start boxes stop) : start + boxes.length ≤ stop ∧
      boxes.length ≤ data.length - start := by
  induction tiled with
  | nil => simp
  | cons inside found _ _ ih =>
    obtain ⟨header, covered, -⟩ := boxAt?_bounds found
    rw [List.length_cons]
    omega

theorem Tiled.last {data : Bytes} {start stop : Nat} {boxes : List Box}
    (tiled : Tiled data start boxes stop) (moved : start ≠ stop) :
    ∃ box, boxes.getLast? = some box ∧ box.stop = stop := by
  induction tiled with
  | nil => exact absurd rfl moved
  | @cons _ box boxes _ _ _ _ rest ih =>
    cases rest with
    | nil => exact ⟨box, rfl, rfl⟩
    | cons inside found other rest =>
      have onward := (boxAt?_bounds found)
      obtain ⟨behind, -⟩ := rest.bounds
      obtain ⟨last, ends, stops⟩ := ih (by omega)
      exact ⟨last, by rw [List.getLast?_cons, ends, Option.getD_some], stops⟩

/-- Only the last of the boxes may stop past the end. -/
theorem Tiled.overrunning {data : Bytes} {start stop : Nat} {boxes : List Box} {box : Box}
    (tiled : Tiled data start boxes stop) (among : box ∈ boxes) (past : data.length ≤ box.stop) :
    boxes.getLast? = some box ∧ box.stop = stop := by
  induction tiled with
  | nil => cases among
  | cons inside found other rest ih =>
    cases among with
    | head =>
      cases rest with
      | nil => exact ⟨rfl, rfl⟩
      | cons inside => omega
    | tail _ among =>
      obtain ⟨last, stops⟩ := ih among
      exact ⟨by rw [List.getLast?_cons, last, Option.getD_some], stops⟩

theorem ReachesCodestream.cons {data : Bytes} {start : Nat} {box : Box}
    (inside : start < data.length) (found : boxAt? data start = some box)
    (other : box.type ≠ codestreamType) (later : ReachesCodestream data box.stop) :
    ReachesCodestream data start := by
  obtain ⟨boxes, stop, last, tiled, rest⟩ := later
  exact ⟨box :: boxes, stop, last, .cons inside found other tiled, rest⟩

/-- The boxes that lead to the end begin with all others that tile the stream. -/
theorem Tiled.extends {data : Bytes} {start stop middle : Nat} {boxes others : List Box}
    (tiled : Tiled data start boxes stop) (past : data.length ≤ stop)
    (part : Tiled data start others middle) :
    ∃ rest, Tiled data middle rest stop ∧ boxes = others ++ rest := by
  induction part generalizing boxes with
  | nil => exact ⟨boxes, tiled, rfl⟩
  | cons inside found _ _ ih =>
    cases tiled with
    | nil => omega
    | cons _ same _ tail =>
      cases found.symm.trans same
      obtain ⟨rest, tiled, rfl⟩ := ih tail
      exact ⟨rest, tiled, rfl⟩

theorem Tiled.unique {data : Bytes} {start stop other : Nat} {boxes others : List Box}
    (tiled : Tiled data start boxes stop) (past : data.length ≤ stop)
    (again : Tiled data start others other) (also : data.length ≤ other) : boxes = others := by
  obtain ⟨rest, tail, rfl⟩ := tiled.extends past again
  cases tail with
  | nil => rw [List.append_nil]
  | cons inside => omega

theorem Tiled.bare {data : Bytes} {start stop : Nat} {boxes : List Box}
    (tiled : Tiled data start boxes stop) (past : data.length ≤ stop) :
    ¬ ReachesCodestream data start := by
  rintro ⟨others, middle, box, part, inside, found, codestream⟩
  obtain ⟨rest, tail, -⟩ := tiled.extends past part
  cases tail with
  | nil => omega
  | cons _ same other _ =>
    cases found.symm.trans same
    exact other codestream

end ImageDerivative.Jp2
