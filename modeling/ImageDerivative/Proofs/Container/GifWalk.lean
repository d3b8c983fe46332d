import ImageDerivative.Proofs.Container.GifFormat
import ImageDerivative.Proofs.Container.Reads

/-! A well-formed GIF stream is walked block by block. Each turn of the walk uses up
the bytes of one block, except that the empty block behind a graphic control, a loop
count or an XMP packet is left to a turn of its own. -/
namespace ImageDerivative.Gif

/-- One counted block, or the empty one that ends them. -/
def subBlockStep : Unit → Read ReadFailure (Unit ⊕ Unit) := fun () => do
  let length ← Read.byte
  if length = 0 then return .inr ()
  Read.skip length.toNat
  return .inl ()

theorem skipSubBlocks_reads (data : List SubBlock) : Reads skipSubBlocks (encodeData data) () := by
  have runs : Walks subBlockStep (data.flatMap SubBlock.encode) () () := by
    induction data with
    | nil => exact .none ()
    | cons block rest ih =>
      rw [List.flatMap_cons]
      refine .append (.one ?_ (List.cons_ne_nil _ _)) ih
      have value : (UInt8.ofNat block.bytes.length).toNat = block.bytes.length :=
        UInt8.toNat_ofNat_of_lt' block.short
      have counted : UInt8.ofNat block.bytes.length ≠ 0 := by
        intro zero
        rw [zero] at value
        exact block.some (List.length_eq_zero_iff.mp value.symm)
      have near : block.bytes.length ≤ Read.maxSkip :=
        Nat.le_trans (Nat.le_of_lt block.short) (by decide)
      refine .byte_bind ?_
      simp only [counted, if_false, value]
      exact (Reads.skip rfl near).map fun _ => (Sum.inl () : Unit ⊕ Unit)
  exact runs.finish (.byte_bind (.pure _))

/-- One byte, which ends the run if it is zero. -/
def zeroStep : Unit → Read ReadFailure (Unit ⊕ Unit) := fun () => do
  if (← Read.byte) = 0 then return .inr () else return .inl ()

theorem skipToZero_reads {run : Bytes} (nonzero : 0 ∉ run) : Reads skipToZero (run ++ [0]) () := by
  have steps : Walks zeroStep run () () := by
    induction run with
    | nil => exact .none ()
    | cons b rest ih =>
      simp only [List.mem_cons, not_or] at nonzero
      refine .cons (.byte_bind ?_) (ih nonzero.2)
      simp only [Ne.symm nonzero.1, if_false]
      exact .pure _
  exact steps.finish (.byte_bind (.pure _))

/-- One byte of a raw run, and what is kept of the run. -/
def rawStep : Bytes × Nat → Read ReadFailure ((Bytes × Nat) ⊕ Option Bytes) := fun (raw, length) => do
  let b ← Read.byte
  if b = 0 then return .inr (some (List.reverse raw))
  if length < maxXmpLength then return .inl (b :: raw, length + 1)
  skipToZero
  return .inr none

theorem rawStep_walks (before : Bytes) {run : Bytes} (nonzero : 0 ∉ run)
    (short : before.length + run.length ≤ maxXmpLength) :
    Walks rawStep run (before.reverse, before.length)
      ((before ++ run).reverse, (before ++ run).length) := by
  induction run generalizing before with
  | nil => rw [List.append_nil]; exact .none _
  | cons b rest ih =>
    simp only [List.mem_cons, not_or] at nonzero
    rw [List.length_cons] at short
    have next := ih (before ++ [b]) nonzero.2 (by simp; omega)
    rw [List.append_assoc, List.singleton_append] at next
    refine .cons (.byte_bind ?_) next
    have room : before.length < maxXmpLength := by omega
    simp only [Ne.symm nonzero.1, if_false, room, if_true, List.reverse_append,
      List.reverse_singleton, List.singleton_append, List.length_append, List.length_singleton]
    exact .pure _

/-- A run is kept up to its zero byte, unless it is too long. -/
theorem rawXmp_reads {run : Bytes} (nonzero : 0 ∉ run) :
    Reads rawXmp (run ++ [0]) (if run.length ≤ maxXmpLength then some run else none) := by
  have walk : rawXmp = Read.walk rawStep .stalled (([] : Bytes).reverse, ([] : Bytes).length) := rfl
  rw [walk]
  by_cases short : run.length ≤ maxXmpLength
  · rw [if_pos short]
    have kept := rawStep_walks [] nonzero (by simpa using short)
    refine kept.finish (.byte_bind ?_)
    simp only [if_true, List.nil_append, List.reverse_reverse]
    exact .pure _
  · rw [if_neg short]
    obtain ⟨kept, b, rest, rfl, full⟩ : ∃ kept b rest, run = kept ++ b :: rest ∧
        kept.length = maxXmpLength := by
      have inside : maxXmpLength < run.length := Nat.lt_of_not_le short
      exact ⟨run.take maxXmpLength, run[maxXmpLength], run.drop (maxXmpLength + 1),
        by rw [← List.drop_eq_getElem_cons inside, List.take_append_drop],
        by rw [List.length_take]; omega⟩
    simp only [List.mem_append, List.mem_cons, not_or] at nonzero
    have first := rawStep_walks [] nonzero.1 (by simp [full])
    rw [List.append_assoc]
    refine first.finish (.byte_bind ?_)
    simp only [Ne.symm nonzero.2.1, if_false, List.nil_append, full, Nat.lt_irrefl]
    exact (skipToZero_reads nonzero.2.2).map fun _ => (Sum.inr none : (Bytes × Nat) ⊕ Option Bytes)

theorem xmpCountdown_length : xmpCountdown.length = xmpTrailerLength := by
  simp [xmpCountdown, xmpTrailerLength]

theorem xmpCountdown_nonzero : 0 ∉ xmpCountdown := by decide

/-- The packet is what stands before the countdown, if all of it was kept. -/
theorem readXmp_reads {packet : Bytes} (nonzero : 0 ∉ packet) :
    Reads readXmp (packet ++ xmpCountdown ++ [0])
      (if packet.length + xmpTrailerLength ≤ maxXmpLength then Xmp.rdfOfBytes packet else none) := by
  have run : 0 ∉ packet ++ xmpCountdown := by
    simp only [List.mem_append, not_or]
    exact ⟨nonzero, xmpCountdown_nonzero⟩
  have length : (packet ++ xmpCountdown).length = packet.length + xmpTrailerLength := by
    rw [List.length_append, xmpCountdown_length]
  have kept : packetOfRaw? (packet ++ xmpCountdown) = some packet := by
    rw [packetOfRaw?, length, if_neg (by omega), Nat.add_sub_cancel, List.take_left]
  have whole : Reads readXmp (packet ++ xmpCountdown ++ [0]) _ :=
    (rawXmp_reads run).map fun raw => (raw.bind packetOfRaw?).bind Xmp.rdfOfBytes
  rw [length] at whole
  by_cases short : packet.length + xmpTrailerLength ≤ maxXmpLength
  · simpa only [if_pos short, Option.bind_some, kept] using whole
  · simpa only [if_neg short, Option.bind_none] using whole

theorem colorTableLength?_le {flags : UInt8} {n : Nat} (declared : colorTableLength? flags = some n) :
    n ≤ 768 := by
  have low : (flags &&& 7).toNat ≤ 7 := by
    rw [UInt8.toNat_and]
    exact Nat.and_le_right
  have power : Nat.pow 2 ((flags &&& 7).toNat + 1) ≤ Nat.pow 2 8 :=
    Nat.pow_le_pow_right (by decide) (by omega)
  have most : Nat.pow 2 8 = 256 := rfl
  unfold colorTableLength? at declared
  split at declared
  · contradiction
  · cases declared
    omega

theorem skipImage_reads (placement : Vector UInt8 8) {flags : UInt8} (table : ColorTable flags)
    (codeSize : UInt8) (data : List SubBlock) :
    Reads skipImage
      (placement.toList ++ [flags] ++ (table.bytes ++ ([codeSize] ++ encodeData data))) () := by
  have length : (placement.toList ++ [flags]).length = 9 := by simp
  have declared : (placement.toList ++ [flags])[8]?.bind colorTableLength? =
      colorTableLength? flags := by
    simp
  have code : Reads (Read.skip 1) [codeSize] () := .skip rfl (by decide)
  have rest := code.bind (skipSubBlocks_reads data)
  refine (Reads.field length).bind ?_
  simp only [declared]
  have counted := table.length_eq
  cases given : colorTableLength? flags with
  | none =>
    rw [given, Option.getD_none, List.length_eq_zero_iff] at counted
    rw [counted, List.nil_append]
    exact rest
  | some n =>
    rw [given, Option.getD_some] at counted
    exact (Reads.skip counted (Nat.le_trans (colorTableLength?_le given) (by decide))).bind rest

structure Findings where
  loopCount? : Option Nat
  delayTime? : Option Nat
  xmp? : Option (Option String)

namespace Findings

def none : Findings := ⟨.none, .none, .none⟩

def apply (found : Findings) (record : Record) : Record :=
  { record with
    loopCount := found.loopCount?.getD record.loopCount
    delayTime := found.delayTime?.getD record.delayTime
    xmp := found.xmp?.getD record.xmp }

/-- Of two parts, the later one counts where both tell something. -/
def andThen (first last : Findings) : Findings where
  loopCount? := last.loopCount?.or first.loopCount?
  delayTime? := last.delayTime?.or first.delayTime?
  xmp? := last.xmp?.or first.xmp?

theorem apply_andThen (first last : Findings) (record : Record) :
    (first.andThen last).apply record = last.apply (first.apply record) := by
  simp only [apply, andThen, Option.getD_or]

end Findings

/-- The walk, and a second one from the mark if the first runs off the end. -/
def walkOrRetry : Walker Unit := do
  try walkBlocks
  catch failure =>
    if failure.isTruncation then
      Read.reset
      walkBlocks
    else throw failure

theorem walkOrRetry_eq (w : Walk) :
    walkOrRetry w = match walkBlocks w with
      | .ok () done => .ok () done
      | .error failure abandoned =>
        if failure.isTruncation then
          (do liftM Read.reset; walkBlocks : Walker Unit) abandoned
        else .error failure abandoned := by
  unfold walkOrRetry
  simp only [tryCatch, tryCatchThe, MonadExceptOf.tryCatch, EStateM.tryCatch,
    EStateM.Backtrackable.restore, EStateM.dummyRestore]
  cases walkBlocks w with
  | ok _ done => rfl
  | error failure abandoned =>
    simp only
    split <;> rfl

theorem Walker.lift_apply {α : Type} (read : Read ReadFailure α) (w : Walk) :
    (liftM read : Walker α) w = match read w.input with
      | .ok a input => .ok a ⟨input, w.record⟩
      | .error failure input => .error failure ⟨input, w.record⟩ := rfl

theorem Walker.lift_bind {α β : Type} (read : Read ReadFailure α) (next : α → Walker β) (w : Walk) :
    (liftM read >>= next) w = match read w.input with
      | .ok a input => next a ⟨input, w.record⟩
      | .error failure input => .error failure ⟨input, w.record⟩ := by
  simp only [bind, EStateM.bind, lift_apply]
  cases read w.input with
  | ok _ _ => rfl
  | error _ _ => rfl

/-- Where the blocks begin if the color table that `record` declares is there. The
mark that is set first leads back to `start`. -/
def blockStart (start : Cursor) (record : Record) : Cursor :=
  let marked := start.withMarks (start.pos :: start.marks)
  match record.colorTableLength with
  | none => marked
  | some length => if length < start.size then marked.forward length else marked

theorem readBlocks_marked (start : Cursor) (record : Record) :
    readBlocks ⟨start, record⟩ = (do
      if let some length := record.colorTableLength then
        if length < (← Read.length (ε := ReadFailure)) then
          Read.skip length
      walkOrRetry : Walker Unit) ⟨start.withMarks (start.pos :: start.marks), record⟩ := rfl

/-- Passing over the table never fails, so that the walks decide the result. -/
theorem readBlocks_eq {start : Cursor} {record : Record} {flags : UInt8}
    (declared : record.colorTableLength = colorTableLength? flags)
    (near : start.pos + (colorTableLength? flags).getD 0 ≤ Read.maxPosition) :
    readBlocks ⟨start, record⟩ = walkOrRetry ⟨blockStart start record, record⟩ := by
  rw [readBlocks_marked]
  unfold blockStart
  cases given : record.colorTableLength with
  | none => rfl
  | some length =>
    rw [← declared, given, Option.getD_some] at near
    have few : length ≤ Read.maxSkip :=
      Nat.le_trans (colorTableLength?_le (declared.symm.trans given)) (by decide)
    have skipped : Read.skip length (start.withMarks (start.pos :: start.marks)) =
        .ok () ((start.withMarks (start.pos :: start.marks)).forward length) := by
      simp only [Read.skip, bind, EStateM.bind, get, getThe, MonadStateOf.get, EStateM.get,
        Nat.not_lt.mpr few, gt_iff_lt, if_false, Cursor.withMarks, Nat.not_lt.mpr near]
      rfl
    refine (Walker.lift_bind _ _ _).trans ?_
    show (if length < start.size then (do liftM (Read.skip length); walkOrRetry)
      else walkOrRetry : Walker Unit) _ = _
    simp only
    split
    · rw [Walker.lift_bind, skipped]
    · rfl

end ImageDerivative.Gif
