import ImageDerivative.Proofs.Container.Delimited

/-! Every walk of a reader makes progress. A turn that goes on has read something, since a read
at the end of the data fails, and so the bytes ahead bound the turns, whatever lengths the data
declares and wherever they lead. The bound that a walk is given is never felt: the loop without
it comes to the same result. -/
namespace ImageDerivative

/-- `d` is further on than `c` in the same data, and `c` was inside it. -/
structure Cursor.Leaves (c d : Cursor) : Prop where
  same_data : d.data = c.data
  inside : c.pos < c.size
  onward : c.pos < d.pos

theorem Cursor.Leaves.remaining_lt {c d : Cursor} (left : c.Leaves d) :
    d.remaining < c.remaining := by
  obtain ⟨same, inside, onward⟩ := left
  rw [remaining, remaining, d.size_eq, same, ← c.size_eq]
  omega

/-- A turn that ends its loop, and what the loop comes to. -/
inductive Ends {ε σ α β : Type} :
    EStateM.Result ε σ (α ⊕ β) → EStateM.Result ε σ β → Prop where
  | answer (b : β) (s : σ) : Ends (.ok (.inr b) s) (.ok b s)
  | failure (e : ε) (s : σ) : Ends (.error e s) (.error e s)

/-- `loop` takes the turns of `step` from `start` on, one after the other. A turn that goes on
moves forward from inside the data. From any state, not more turns go on than bytes are ahead,
and the turn behind them ends the loop. -/
structure MakesProgress {ε σ α β : Type} (input : σ → Cursor) (step : α → EStateM ε σ (α ⊕ β))
    (start : α) (loop : EStateM ε σ β) : Prop where
  onward : ∀ ⦃a s b t⦄, step a s = .ok (.inl b) t → (input s).Leaves (input t)
  ends : ∀ s, ∃ n ≤ (input s).remaining, ∃ b t,
    Turns step n start s b t ∧ Ends (step b t) (loop s)

namespace MakesProgress

variable {ε σ α β : Type}

/-- A repetition within a sufficient bound is the loop without one. -/
theorem exists_ends {input : σ → Cursor} {step : α → EStateM ε σ (α ⊕ β)}
    (onward : ∀ ⦃a s b t⦄, step a s = .ok (.inl b) t → (input s).Leaves (input t))
    {stalled : EStateM ε σ β} {bound : Nat} {a : α} {s : σ} (enough : (input s).remaining < bound) :
    ∃ n ≤ (input s).remaining, ∃ b t,
      Turns step n a s b t ∧ Ends (step b t) (repeatUpTo stalled step bound a s) := by
  induction bound generalizing a s with
  | zero => omega
  | succ bound ih =>
    simp only [repeatUpTo, bind, EStateM.bind]
    cases turned : step a s with
    | error failure t =>
      refine ⟨0, Nat.zero_le _, a, s, .none, ?_⟩
      rw [turned]
      exact .failure failure t
    | ok next t =>
      cases next with
      | inr result =>
        refine ⟨0, Nat.zero_le _, a, s, .none, ?_⟩
        rw [turned]
        exact .answer result t
      | inl next =>
        have fewer := (onward turned).remaining_lt
        obtain ⟨n, few, b, u, turns, ended⟩ := ih (a := next) (s := t) (by omega)
        exact ⟨n + 1, by omega, b, u, .next turned turns, ended⟩

theorem walk {step : α → Read ε (α ⊕ β)}
    (onward : ∀ ⦃a c b d⦄, step a c = .ok (.inl b) d → c.Leaves d) (stalled : ε) (start : α) :
    MakesProgress id step start (Read.walk step stalled start) :=
  ⟨onward, fun _ => exists_ends onward (Nat.lt_succ_self _)⟩

end MakesProgress

namespace Read

variable {ε α β : Type} {cut : ε → Bool} {c d : Cursor}

theorem Advances.leaves {read : Read ε α} (advances : Advances cut read) {a : α}
    (ran : read c = .ok a d) : c.Leaves d := by
  have reached := (advances.settled c ran).1
  have fewer := advances.consumes ran
  rw [Cursor.remaining, Cursor.remaining, reached.same_size] at fewer
  exact ⟨reached.same_data, by omega, by omega⟩

theorem Advances.walk_progress {step : α → Read ε (α ⊕ β)} (turns : ∀ a, Advances cut (step a))
    (stalled : ε) (start : α) : MakesProgress id step start (walk step stalled start) :=
  .walk (fun a _ _ _ turned => (turns a).leaves turned) stalled start

/-- No field is found at the end of the data or past it. -/
theorem field_past {width : Nat} (some : width ≠ 0) (past : c.size ≤ c.pos) :
    field width c = .error .endOfField c.toEnd := by
  rw [field_apply, if_neg]
  rw [Cursor.remaining]
  omega

theorem littleEndian_past {width : Nat} (some : width ≠ 0) (past : c.size ≤ c.pos) :
    littleEndian width c = .error .endOfField c.toEnd := by
  simp only [littleEndian, bind, EStateM.bind, field_past some past]

theorem bigEndian_past {width : Nat} (some : width ≠ 0) (past : c.size ≤ c.pos) :
    bigEndian width c = .error .endOfField c.toEnd := by
  simp only [bigEndian, bind, EStateM.bind, field_past some past]

theorem byte_past (past : c.size ≤ c.pos) : byte c = .error .endOfField c.toEnd := by
  simp only [byte_eq, bind, EStateM.bind, field_past Nat.one_ne_zero past]

end Read

namespace Jp2

theorem walkBox_leaves {record next : Record} {c d : Cursor}
    (turned : walkBox record c = .ok (.inl next) d) : c.Leaves d := by
  obtain ⟨inside, box, found, -, -, rfl⟩ := (walkBox_next_iff record).mp ⟨next, turned⟩
  obtain ⟨header, covered, -⟩ := boxAt?_bounds found
  refine ⟨rfl, inside, ?_⟩
  simp only [Cursor.forward]
  omega

end Jp2

namespace Gif

theorem walkBlock_leaves {w v : Walk} {turn : Unit ⊕ Unit} (turned : walkBlock w = .ok turn v) :
    w.input.Leaves v.input := by
  have carried : walkBlock.carried w.record w.input = .ok (turn, v.record) v.input := by
    rw [Walker.carried, turned]
  refine (carriedTurn_advances w.record).leaves (a := handOn (turn, v.record)) ?_
  rw [carriedTurn_eq]
  exact state_bind_eq_ok.mpr ⟨_, _, carried, rfl⟩

theorem walkBlocks_progress :
    MakesProgress Walk.input (fun () => walkBlock) () walkBlocks :=
  ⟨fun _ _ _ _ => walkBlock_leaves, fun _ =>
    MakesProgress.exists_ends (fun _ _ _ _ => walkBlock_leaves) (Nat.lt_succ_self _)⟩

/-- What a walk over the blocks means to the reader that made it. -/
def answer : EStateM.Result ReadFailure Walk Unit → EStateM.Result MetadataError Cursor Record
  | .ok () w => .ok w.record w.input
  | .error failure w => .error (.io failure) w.input

def firstWalk (start : Cursor) (header : Record) : Walk := ⟨blockStart start header, header⟩

/-- The walks over the blocks that a reading from `c` makes, and what the reading comes to. -/
inductive ReadInWalks (c : Cursor) :
    List Walk → EStateM.Result MetadataError Cursor Record → Prop where
  | unopened {error : MetadataError} {d : Cursor} : readHeader c = .error error d →
      ReadInWalks c [] (.error error d)
  /-- The first walk counts, unless it runs off the end. -/
  | once {header : Record} {start : Cursor} : readHeader c = .ok header start →
      (∀ failure left, walkBlocks (firstWalk start header) = .error failure left →
        failure.isTruncation = false) →
      ReadInWalks c [firstWalk start header] (answer (walkBlocks (firstWalk start header)))
  /-- Then the second one counts, whatever it comes to. -/
  | twice {header : Record} {start : Cursor} {failure : ReadFailure} {left : Walk} :
      readHeader c = .ok header start → walkBlocks (firstWalk start header) = .error failure left →
      failure.isTruncation = true →
      ReadInWalks c [firstWalk start header, ⟨start, left.record⟩]
        (answer (walkBlocks ⟨start, left.record⟩))

theorem read_eq_answer {c start : Cursor} {header : Record} (short : c.size ≤ Read.maxSkip)
    (parsed : readHeader c = .ok header start) :
    read c = answer (walkOrRetry (firstWalk start header)) := by
  obtain ⟨width, height, flags, found, place, declared⟩ := readHeader_inv parsed
  have near : start.pos + (colorTableLength? flags).getD 0 ≤ Read.maxPosition := by
    have inside := (List.getElem?_eq_some_iff.mp found).1
    have table : (colorTableLength? flags).getD 0 ≤ 768 := by
      cases given : colorTableLength? flags with
      | none => exact Nat.zero_le _
      | some length => exact colorTableLength?_le given
    rw [← c.size_eq] at inside
    simp only [place, Cursor.forward, Read.maxSkip, Read.maxPosition] at short ⊢
    omega
  rw [read, parsed]
  simp only [readBlocks_eq (congrArg Record.colorTableLength declared) near]
  rfl

theorem ReadInWalks.length_le {c : Cursor} {walks : List Walk}
    {result : EStateM.Result MetadataError Cursor Record} (reading : ReadInWalks c walks result) :
    walks.length ≤ 2 := by
  cases reading with
  | unopened _ => exact Nat.zero_le _
  | once _ _ => exact Nat.le_succ _
  | twice _ _ _ => exact Nat.le_refl _

theorem exists_readInWalks {c : Cursor} (short : c.size ≤ Read.maxSkip) :
    ∃ walks, ReadInWalks c walks (read c) := by
  cases parsed : readHeader c with
  | error error d =>
    refine ⟨[], ?_⟩
    rw [read, parsed]
    exact .unopened parsed
  | ok header start =>
    rw [read_eq_answer short parsed, walkOrRetry_eq]
    cases first : walkBlocks (firstWalk start header) with
    | ok _ left =>
      have result := ReadInWalks.once parsed fun failure stop failed => by
        rw [first] at failed
        cases failed
      rw [first] at result
      exact ⟨_, result⟩
    | error failure left =>
      by_cases truncated : failure.isTruncation = true
      · have back := ((blockStart_moved start header).trans (walkBlocks_abandoned first).1).reset_eq
        simp only [truncated, if_true]
        rw [Walker.lift_bind, back]
        exact ⟨_, .twice parsed first truncated⟩
      · have result := ReadInWalks.once parsed fun other stop failed => by
          rw [first] at failed
          cases failed
          exact Bool.eq_false_iff.mpr truncated
        rw [first] at result
        simp only [truncated]
        exact ⟨_, result⟩

end Gif

/-- All walks of the three readers make progress, from any position and on any data. What their
turns begin with is not found at the end of the data or past it, and a GIF stream is walked at
most twice. -/
theorem walks_makeProgress :
    (MakesProgress Gif.Walk.input (fun () => Gif.walkBlock) () Gif.walkBlocks ∧
      MakesProgress id Gif.subBlockStep () Gif.skipSubBlocks ∧
      MakesProgress id Gif.rawStep ([], 0) Gif.rawXmp ∧
      MakesProgress id Gif.zeroStep () Gif.skipToZero) ∧
    ((∀ progress, MakesProgress id Jpeg.walkSegment progress
        (Read.walk Jpeg.walkSegment (.io .stalled) progress)) ∧
      MakesProgress id Jpeg.markerStep () (Read.walk Jpeg.markerStep (.io .stalled) ())) ∧
    (∀ record, MakesProgress id Jp2.walkBox record (Jp2.walkBoxes record) ∧
      MakesProgress id Jp2.walkMarker record (Jp2.readCodestream record)) ∧
    (∀ c : Cursor, c.size ≤ c.pos → Read.byte c = .error .endOfField c.toEnd ∧
      ∀ width ≠ 0, Read.field width c = .error .endOfField c.toEnd ∧
        Read.littleEndian width c = .error .endOfField c.toEnd ∧
        Read.bigEndian width c = .error .endOfField c.toEnd) ∧
    ∀ c : Cursor, c.size ≤ Read.maxSkip →
      ∃ walks, walks.length ≤ 2 ∧ Gif.ReadInWalks c walks (Gif.read c) := by
  refine ⟨⟨Gif.walkBlocks_progress, ?_, ?_, ?_⟩, ⟨fun p => ?_, ?_⟩, fun record => ⟨?_, ?_⟩,
    fun c past => ⟨Read.byte_past past, fun width some => ⟨Read.field_past some past,
      Read.littleEndian_past some past, Read.bigEndian_past some past⟩⟩,
    fun c short => ?_⟩
  · exact Read.Advances.walk_progress (fun _ => Gif.subBlockStep_advances) _ _
  · exact Read.Advances.walk_progress Gif.rawStep_advances _ _
  · exact Read.Advances.walk_progress (fun _ => Gif.zeroStep_advances) _ _
  · exact Read.Advances.walk_progress Jpeg.walkSegment_advances _ _
  · exact Read.Advances.walk_progress (fun _ => Jpeg.markerStep_advances) _ _
  · exact .walk (fun _ _ _ _ => Jp2.walkBox_leaves) _ _
  · exact Read.Advances.walk_progress Jp2.walkMarker_advances _ _
  · obtain ⟨walks, reading⟩ := Gif.exists_readInWalks short
    exact ⟨walks, reading.length_le, reading⟩

/-- A stream without the table that it declares, whose first walk runs off the end, where no
word is found. -/
theorem walks_makeProgress_overrunning :
    (Cursor.ofBytes Gif.overrunning).size ≤ Read.maxSkip ∧
      (∃ walks, walks.length ≤ 2 ∧ Gif.ReadInWalks (.ofBytes Gif.overrunning) walks
        (Gif.read (.ofBytes Gif.overrunning))) ∧
      ∃ ended : Cursor, ended.size ≤ ended.pos ∧ 2 ≠ 0 ∧
        Read.littleEndian 2 ended = .error .endOfField ended.toEnd := by
  have short : (Cursor.ofBytes Gif.overrunning).size ≤ Read.maxSkip := by decide
  have past : (Cursor.ofBytes Gif.overrunning).toEnd.size ≤
      (Cursor.ofBytes Gif.overrunning).toEnd.pos := Nat.le_refl _
  have some : 2 ≠ 0 := by decide
  exact ⟨short, walks_makeProgress.2.2.2.2 _ short,
    _, past, some, ((walks_makeProgress.2.2.2.1 _ past).2 2 some).2.1⟩

end ImageDerivative
