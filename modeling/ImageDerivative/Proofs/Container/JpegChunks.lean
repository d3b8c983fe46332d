import Mathlib
import ImageDerivative.Proofs.Container.JpegFormat

/-! Chunks in the order of their keys. Those with different keys have one order, however they
came. Where the keys are offsets and each chunk begins where the one before it ends, putting
them in their places is to append them. -/
namespace ImageDerivative.Jpeg

/-- Where the bytes of a chunk end, if its key is an offset. -/
def Chunk.stop (chunk : Chunk) : Nat := chunk.key + chunk.bytes.length

def Chunk.offsets (chunk : Chunk) : List Nat := List.range' chunk.key chunk.bytes.length

/-- Chunks of which the first begins at `start` and every other where the one before it
ends, up to `stop`. -/
inductive Tiles : (start : Nat) → List Chunk → (stop : Nat) → Prop where
  | nil : Tiles start [] start
  | cons {chunk : Chunk} : chunk.key = start → Tiles chunk.stop rest stop →
      Tiles start (chunk :: rest) stop

/-- There is a byte for every offset of a packet of this length. -/
def Covered (chunks : List Chunk) (length : Nat) : Prop :=
  ∀ offset < length, ∃ chunk ∈ chunks, offset ∈ chunk.offsets

namespace Chunk

theorem sorted_perm (chunks : List Chunk) : (sorted chunks).Perm chunks :=
  List.mergeSort_perm chunks _

theorem sorted_pairwise (chunks : List Chunk) :
    (sorted chunks).Pairwise fun a b => a.key ≤ b.key := by
  have ordered : (sorted chunks).Pairwise fun a b => decide (a.key ≤ b.key) = true := by
    refine List.pairwise_mergeSort (fun a b c first last => ?_) (fun a b => ?_) chunks
    · exact decide_eq_true (Nat.le_trans (of_decide_eq_true first) (of_decide_eq_true last))
    · rw [Bool.or_eq_true, decide_eq_true_eq, decide_eq_true_eq]
      exact Nat.le_total a.key b.key
  exact ordered.imp of_decide_eq_true

/-- Chunks with different keys have one order, however they came. -/
theorem sorted_eq {chunks ordered : List Chunk} (perm : chunks.Perm ordered)
    (increasing : ordered.Pairwise fun a b => a.key < b.key) : sorted chunks = ordered := by
  have same := (sorted_perm chunks).trans perm
  refine same.eq_of_pairwise (fun a b left right below above => ?_) (sorted_pairwise chunks)
    (increasing.imp Nat.le_of_lt)
  have keys : (ordered.map key).Nodup := List.pairwise_map.mpr (increasing.imp Nat.ne_of_lt)
  exact List.inj_on_of_nodup_map keys (same.mem_iff.mp left) right (Nat.le_antisymm below above)

end Chunk

theorem length_place (packet : Bytes) (chunk : Chunk) :
    (place packet chunk).length = chunk.stop := by
  rw [place, Chunk.stop, List.length_append, List.length_append, List.length_take,
    List.length_replicate]
  omega

/-- A chunk that begins where the packet ends is appended. -/
theorem place_eq_append {packet : Bytes} {chunk : Chunk} (next : chunk.key = packet.length) :
    place packet chunk = packet ++ chunk.bytes := by
  rw [place, next, List.take_length, Nat.sub_self, List.replicate_zero, List.append_nil]

namespace Tiles

variable {start stop : Nat} {chunks : List Chunk}

theorem foldl_place (tiles : Tiles start chunks stop) {packet : Bytes}
    (length : packet.length = start) :
    chunks.foldl place packet = packet ++ chunks.flatMap Chunk.bytes := by
  induction tiles generalizing packet with
  | nil => exact (List.append_nil packet).symm
  | @cons start rest stop chunk next tiles ih =>
    rw [List.foldl_cons, ih (length_place packet chunk), place_eq_append (next.trans length.symm),
      List.flatMap_cons, List.append_assoc]

theorem stop_eq (tiles : Tiles start chunks stop) :
    stop = start + (chunks.flatMap Chunk.bytes).length := by
  induction tiles with
  | nil => rfl
  | cons next tiles ih =>
    rw [ih, List.flatMap_cons, List.length_append, Chunk.stop, next, Nat.add_assoc]

theorem behind (tiles : Tiles start chunks stop) : ∀ chunk ∈ chunks, start ≤ chunk.key := by
  induction tiles with
  | nil => exact List.forall_mem_nil _
  | @cons start rest stop chunk next tiles ih =>
    refine List.forall_mem_cons.mpr ⟨next.ge, fun other among => ?_⟩
    have later := ih other among
    rw [Chunk.stop] at later
    omega

theorem covered (tiles : Tiles start chunks stop) {offset : Nat} (behind : start ≤ offset)
    (before : offset < stop) : ∃ chunk ∈ chunks, offset ∈ chunk.offsets := by
  induction tiles with
  | nil => omega
  | @cons start rest stop chunk next tiles ih =>
    by_cases inside : offset < chunk.stop
    · exact ⟨chunk, List.mem_cons_self, List.mem_range'_1.mpr ⟨next ▸ behind, inside⟩⟩
    · obtain ⟨found, among, covers⟩ := ih (Nat.not_lt.mp inside) before
      exact ⟨found, List.mem_cons_of_mem _ among, covers⟩

end Tiles

/-- Chunks that do not overlap and lie before `stop` tile all the space if they fill it. -/
theorem tiles_of_ordered {start stop : Nat} {chunks : List Chunk}
    (ordered : chunks.Pairwise fun a b => a.stop ≤ b.key)
    (behind : ∀ chunk ∈ chunks, start ≤ chunk.key) (before : ∀ chunk ∈ chunks, chunk.stop ≤ stop)
    (room : start ≤ stop) (enough : stop ≤ start + (chunks.flatMap Chunk.bytes).length) :
    Tiles start chunks stop := by
  induction chunks generalizing start with
  | nil =>
    obtain rfl := Nat.le_antisymm room enough
    exact .nil
  | cons chunk rest ih =>
    obtain ⟨after, ordered⟩ := List.pairwise_cons.mp ordered
    obtain ⟨first, -⟩ := List.forall_mem_cons.mp behind
    obtain ⟨ends, before⟩ := List.forall_mem_cons.mp before
    rw [List.flatMap_cons, List.length_append] at enough
    have stop_eq : chunk.stop = chunk.key + chunk.bytes.length := rfl
    have tiles := ih ordered after before ends (by omega)
    have filled := tiles.stop_eq
    exact .cons (by omega) tiles

/-- Every offset is there exactly if there are enough of them when each counts once. -/
theorem covered_iff {chunks : List Chunk} {length : Nat}
    (within : ∀ chunk ∈ chunks, chunk.stop ≤ length) :
    Covered chunks length ↔ length ≤ (chunks.flatMap Chunk.offsets).dedup.length := by
  let found := chunks.flatMap Chunk.offsets
  have inside : found.toFinset ⊆ Finset.range length := by
    intro offset among
    obtain ⟨chunk, member, covers⟩ := List.mem_flatMap.mp (List.mem_toFinset.mp among)
    have before := (List.mem_range'_1.mp covers).2
    exact Finset.mem_range.mpr (Nat.lt_of_lt_of_le before (within chunk member))
  have all : Covered chunks length ↔ Finset.range length ⊆ found.toFinset := by
    simp only [Covered, Finset.subset_iff, Finset.mem_range, List.mem_toFinset, found,
      List.mem_flatMap]
  rw [all, ← List.card_toFinset]
  constructor
  · intro covers
    have count := Finset.card_le_card covers
    rwa [Finset.card_range] at count
  · intro enough
    have same := Finset.eq_of_subset_of_card_le inside (by rwa [Finset.card_range])
    exact same.ge

theorem foldl_max (lengths : List Nat) : lengths.foldl max 0 = lengths.foldr max ⊥ :=
  List.foldl_eq_foldr

theorem le_foldl_max {lengths : List Nat} {length : Nat} (among : length ∈ lengths) :
    length ≤ lengths.foldl max 0 := by
  rw [foldl_max]
  exact List.le_max_of_le among (Nat.le_refl length)

theorem foldl_max_eq {lengths : List Nat} {full : Nat} (same : ∀ length ∈ lengths, length = full)
    (some : lengths ≠ []) : lengths.foldl max 0 = full := by
  obtain ⟨length, among⟩ := List.exists_mem_of_ne_nil lengths some
  refine Nat.le_antisymm ?_ ((same length among).ge.trans (le_foldl_max among))
  rw [foldl_max]
  exact List.max_le_of_forall_le _ _ fun length among => (same length among).le

namespace Progress

variable {p : Progress}

theorem finish_profile (some : p.icc ≠ []) :
    p.finish.iccProfile = .some ((Chunk.sorted p.icc).flatMap Chunk.bytes) :=
  if_neg (by rwa [List.isEmpty_iff])

theorem finish_profile_eq_none_iff : p.finish.iccProfile = none ↔ p.icc = [] := by
  constructor
  · intro none
    by_contra some
    rw [finish_profile some] at none
    cases none
  · intro empty
    exact if_pos (List.isEmpty_iff.mpr empty)

theorem finish_packet (some : p.extended ≠ []) :
    p.finish.extendedXmp =
      (assembleExtended? p.extended p.extendedLength).bind Xmp.rdfOfBytes :=
  if_neg (by rwa [List.isEmpty_iff])

end Progress

end ImageDerivative.Jpeg
