import Mathlib
import ImageDerivative.Text.Utf8

/-! Reading bytes lossily, part by part. An ASCII byte ends the character under way and is
read as itself, and any other byte gives only characters past ASCII. So a text splits where
its bytes hold ASCII, and the ASCII in a text comes from nowhere else. -/
namespace ImageDerivative.Utf8

/-- With `later` bytes to come after the next one, which is in a range, every character that
begins with `value` is past ASCII. -/
def CompletesPast : (later value : Nat) → (low high : UInt8) → Prop
  | 0, value, low, high => 0x80 ≤ low ∧ ∀ b, low ≤ b → b ≤ high →
    0x80 ≤ (Char.ofNat (value * 64 + (b.toNat - 0x80))).toNat
  | later + 1, value, low, high => 0x80 ≤ low ∧ ∀ b, low ≤ b → b ≤ high →
    CompletesPast later (value * 64 + (b.toNat - 0x80)) 0x80 0xBF

def Partial.Sound (p : Partial) : Prop := CompletesPast p.later p.value p.low p.high

theorem Partial.Sound.low {p : Partial} (sound : p.Sound) : 0x80 ≤ p.low := by
  obtain ⟨value, later, low, high⟩ := p
  cases later with
  | zero => exact sound.1
  | succ later => exact sound.1

theorem past_ofNat {n : Nat} (past : 0x80 ≤ n)
    (valid : n < 0xD800 ∨ 0xE000 ≤ n ∧ n < 0x110000) : 0x80 ≤ (Char.ofNat n).toNat := by
  have scalar : n.isValidChar := by
    rcases valid with low | ⟨above, high⟩
    · exact .inl low
    · exact .inr ⟨by omega, high⟩
  rw [Char.toNat_ofNat, if_pos scalar]
  exact past

theorem completesPast_two {n : Nat} (above : 0xC2 ≤ n) (below : n < 0xE0) :
    CompletesPast 0 (n - 0xC0) 0x80 0xBF := by
  refine ⟨by decide, ?_⟩
  intro b low high
  have least : 0x80 ≤ b.toNat := low
  have greatest : b.toNat ≤ 0xBF := high
  apply past_ofNat
  · omega
  · left; omega

/-- The ranges behind 0xE0 and 0xED keep out overlong forms and surrogates. -/
theorem completesPast_three {n : Nat} {low high : UInt8} (above : 0xE0 ≤ n) (below : n < 0xF0)
    (from80 : 0x80 ≤ low) (toBF : high ≤ 0xBF) (long : n = 0xE0 → 0xA0 ≤ low)
    (scalar : n = 0xED → high ≤ 0x9F) : CompletesPast 1 (n - 0xE0) low high := by
  refine ⟨from80, ?_⟩
  intro b lowest highest
  refine ⟨by decide, ?_⟩
  intro c low' high'
  simp only [UInt8.le_iff_toNat_le, UInt8.reduceToNat] at *
  apply past_ofNat
  · omega
  · omega

/-- The ranges behind 0xF0 and 0xF4 keep out overlong forms and what is past 0x10FFFF. -/
theorem completesPast_four {n : Nat} {low high : UInt8} (above : 0xF0 ≤ n) (below : n < 0xF5)
    (from80 : 0x80 ≤ low) (toBF : high ≤ 0xBF) (long : n = 0xF0 → 0x90 ≤ low)
    (scalar : n = 0xF4 → high ≤ 0x8F) : CompletesPast 2 (n - 0xF0) low high := by
  refine ⟨from80, ?_⟩
  intro b lowest highest
  refine ⟨by decide, ?_⟩
  intro c low' high'
  refine ⟨by decide, ?_⟩
  intro d low'' high''
  simp only [UInt8.le_iff_toNat_le, UInt8.reduceToNat] at *
  apply past_ofNat
  · omega
  · omega

theorem Partial.sound_ofLead? {b : UInt8} {p : Partial} (led : ofLead? b = some p) : p.Sound := by
  have is (lead : UInt8) (same : b.toNat = lead.toNat) : b = lead := UInt8.toNat_inj.mp same
  unfold ofLead? at led
  split at led
  next => cases led
  next above =>
    split at led
    next below =>
      rw [← Option.some.inj led]
      exact completesPast_two (UInt8.not_lt.mp above) below
    next above =>
      split at led
      next below =>
        rw [← Option.some.inj led]
        change CompletesPast 1 (b.toNat - 0xE0) (if b = 0xE0 then 0xA0 else 0x80)
          (if b = 0xED then 0x9F else 0xBF)
        refine completesPast_three (UInt8.not_lt.mp above) below ?_ ?_ ?_ ?_
        · split <;> decide
        · split <;> decide
        · intro same
          rw [if_pos (is 0xE0 same)]
          exact UInt8.le_refl _
        · intro same
          rw [if_pos (is 0xED same)]
          exact UInt8.le_refl _
      next above =>
        split at led
        next below =>
          rw [← Option.some.inj led]
          change CompletesPast 2 (b.toNat - 0xF0) (if b = 0xF0 then 0x90 else 0x80)
            (if b = 0xF4 then 0x8F else 0xBF)
          refine completesPast_four (UInt8.not_lt.mp above) below ?_ ?_ ?_ ?_
          · split <;> decide
          · split <;> decide
          · intro same
            rw [if_pos (is 0xF0 same)]
            exact UInt8.le_refl _
          · intro same
            rw [if_pos (is 0xF4 same)]
            exact UInt8.le_refl _
        next => cases led

/-- The character under way, if there is one, ends past ASCII. -/
def SoundPending (pending : Option Partial) : Prop := ∀ p, pending = some p → p.Sound

theorem SoundPending.none : SoundPending none := fun _ found => by cases found

def emitted (pending : Option Partial) (b : UInt8) : List Char :=
  (Decoder.step ⟨"", pending⟩ b).text.toList

/-- The character that is under way behind a byte. -/
def pendingAfter (pending : Option Partial) (b : UInt8) : Option Partial :=
  (Decoder.step ⟨"", pending⟩ b).pending

/-- What is read of `bytes` when a character is under way before them. -/
def readFrom (pending : Option Partial) (bytes : Bytes) : List Char :=
  (bytes.foldl Decoder.step ⟨"", pending⟩).finish.toList

theorem start_eq (text : String) (b : UInt8) :
    (Decoder.start text b).text.toList = text.toList ++ (Decoder.start "" b).text.toList ∧
      (Decoder.start text b).pending = (Decoder.start "" b).pending := by
  unfold Decoder.start
  split
  next => simp
  next => split <;> simp

theorem step_eq (d : Decoder) (b : UInt8) :
    (d.step b).text.toList = d.text.toList ++ emitted d.pending b ∧
      (d.step b).pending = pendingAfter d.pending b := by
  obtain ⟨text, pending⟩ := d
  unfold emitted pendingAfter Decoder.step
  cases pending with
  | none => exact start_eq text b
  | some p =>
    simp only
    split
    next => split <;> simp
    next =>
      have broken := start_eq (text.push '\uFFFD') b
      have fresh := start_eq ("".push '\uFFFD') b
      rw [broken.1, broken.2, fresh.1, fresh.2]
      simp

theorem finish_foldl (d : Decoder) (bytes : Bytes) :
    (bytes.foldl Decoder.step d).finish.toList = d.text.toList ++ readFrom d.pending bytes := by
  induction bytes generalizing d with
  | nil =>
    obtain ⟨text, pending⟩ := d
    cases pending with
    | none => simp [readFrom, Decoder.finish]
    | some p => simp [readFrom, Decoder.finish]
  | cons b rest ih =>
    have step := step_eq d b
    have alone := ih (Decoder.step ⟨"", d.pending⟩ b)
    unfold readFrom
    rw [List.foldl_cons, List.foldl_cons, ih, alone, step.1, step.2, List.append_assoc]
    rfl

theorem readFrom_nil (pending : Option Partial) :
    readFrom pending [] = if pending.isSome then ['\uFFFD'] else [] := by
  cases pending with
  | none => rfl
  | some p => simp [readFrom, Decoder.finish]

theorem readFrom_cons (pending : Option Partial) (b : UInt8) (rest : Bytes) :
    readFrom pending (b :: rest) =
      emitted pending b ++ readFrom (pendingAfter pending b) rest := by
  conv => lhs; unfold readFrom
  rw [List.foldl_cons, finish_foldl]
  rfl

theorem not_accepts_of_ascii {p : Partial} (sound : p.Sound) {b : UInt8} (ascii : b < 0x80) :
    p.accepts b = false := by
  have low := sound.low
  have above : ¬ p.low ≤ b := fun le => absurd (UInt8.le_trans low le) (UInt8.not_le.mpr ascii)
  rw [Partial.accepts, decide_eq_false above, Bool.false_and]

/-- An ASCII byte ends what is under way, is itself a character, and leaves nothing behind. -/
theorem readFrom_ascii {pending : Option Partial} (sound : SoundPending pending) {b : UInt8}
    (ascii : b < 0x80) (rest : Bytes) :
    readFrom pending (b :: rest) =
      readFrom pending [] ++ Char.ofNat b.toNat :: readFrom none rest := by
  rw [readFrom_cons, readFrom_nil]
  unfold emitted pendingAfter Decoder.step
  cases pending with
  | none =>
    simp only [Decoder.start, if_pos ascii]
    simp
  | some p =>
    simp only [not_accepts_of_ascii (sound p rfl) ascii, Decoder.start, if_pos ascii]
    simp

theorem SoundPending.after {pending : Option Partial} (sound : SoundPending pending) (b : UInt8) :
    SoundPending (pendingAfter pending b) := by
  have started : ∀ text, SoundPending (Decoder.start text b).pending := by
    intro text p found
    unfold Decoder.start at found
    split at found
    next => cases found
    next =>
      split at found
      next q led =>
        cases found
        exact Partial.sound_ofLead? led
      next => cases found
  unfold pendingAfter Decoder.step
  cases pending with
  | none => exact started ""
  | some p =>
    have whole := sound p rfl
    obtain ⟨value, later, low, high⟩ := p
    simp only
    split
    next accepted =>
      obtain ⟨least, greatest⟩ : low ≤ b ∧ b ≤ high := by
        simpa [Partial.accepts] using accepted
      cases later with
      | zero => exact .none
      | succ later =>
        intro q found
        rw [← Option.some.inj found]
        exact whole.2 b least greatest
    next => exact started _

theorem past_of_mem_emitted {pending : Option Partial} (sound : SoundPending pending) {b : UInt8}
    (past : 0x80 ≤ b) {c : Char} (member : c ∈ emitted pending b) : 0x80 ≤ c.toNat := by
  have high : ¬ b < 0x80 := UInt8.not_lt.mpr past
  have started : ∀ c ∈ (Decoder.start "" b).text.toList, 0x80 ≤ c.toNat := by
    intro c member
    unfold Decoder.start at member
    rw [if_neg high] at member
    split at member
    next => simp at member
    next =>
      obtain rfl : c = '\uFFFD' := by simpa using member
      decide
  unfold emitted Decoder.step at member
  cases pending with
  | none => exact started c member
  | some p =>
    have whole := sound p rfl
    obtain ⟨value, later, low, greatest⟩ := p
    simp only at member
    split at member
    next accepted =>
      obtain ⟨least, most⟩ : low ≤ b ∧ b ≤ greatest := by
        simpa [Partial.accepts] using accepted
      cases later with
      | zero =>
        have single : c = Char.ofNat (Partial.extend ⟨value, 0, low, greatest⟩ b) := by
          simpa using member
        rw [single]
        exact whole.2 b least most
      | succ later => simp at member
    next =>
      rw [(start_eq ("".push '\uFFFD') b).1, List.mem_append] at member
      rcases member with replaced | fresh
      · obtain rfl : c = '\uFFFD' := by simpa using replaced
        decide
      · exact started c fresh

/-- A byte that adds nothing has a character under way behind it. -/
theorem emitted_ne_nil_or (pending : Option Partial) (b : UInt8) :
    emitted pending b ≠ [] ∨ (pendingAfter pending b).isSome := by
  have started : ∀ text, (Decoder.start text b).text ≠ text ∨
      (Decoder.start text b).pending.isSome := by
    intro text
    unfold Decoder.start
    split
    next => left; simp [← String.toList_inj]
    next =>
      split
      next => right; rfl
      next => left; simp [← String.toList_inj]
  unfold emitted pendingAfter Decoder.step
  cases pending with
  | none =>
    refine (started "").imp_left ?_
    intro differs empty
    exact differs (String.toList_inj.mp empty)
  | some p =>
    simp only
    split
    next => split <;> simp
    next =>
      left
      rw [(start_eq ("".push '\uFFFD') b).1]
      simp

theorem readFrom_ne_nil {pending : Option Partial} {bytes : Bytes}
    (some : pending.isSome ∨ bytes ≠ []) : readFrom pending bytes ≠ [] := by
  induction bytes generalizing pending with
  | nil =>
    rcases some with held | more
    · simp [readFrom_nil, held]
    · exact absurd rfl more
  | cons b rest ih =>
    rw [readFrom_cons]
    intro empty
    obtain ⟨first, last⟩ := List.append_eq_nil_iff.mp empty
    rcases emitted_ne_nil_or pending b with emits | holds
    · exact emits first
    · exact ih (.inl holds) last

/-- More bytes are not fewer characters. -/
theorem length_readFrom_le (pending : Option Partial) (a b : Bytes) :
    (readFrom pending a).length ≤ (readFrom pending (a ++ b)).length := by
  induction a generalizing pending with
  | nil =>
    cases pending with
    | none => exact Nat.zero_le _
    | some p =>
      have nonempty : readFrom (some p) b ≠ [] := readFrom_ne_nil (.inl rfl)
      rw [readFrom_nil]
      exact List.length_pos_iff.mpr nonempty
  | cons first rest ih =>
    rw [List.cons_append, readFrom_cons, readFrom_cons, List.length_append, List.length_append]
    exact Nat.add_le_add_left (ih _) _

/-- Bytes are read on both sides of an ASCII byte as if the other side were not there. -/
theorem readFrom_append {pending : Option Partial} (sound : SoundPending pending) (a : Bytes)
    {b : UInt8} (ascii : b < 0x80) (c : Bytes) :
    readFrom pending (a ++ b :: c) = readFrom pending a ++ readFrom none (b :: c) := by
  induction a generalizing pending with
  | nil =>
    rw [List.nil_append, readFrom_ascii sound ascii, readFrom_ascii .none ascii]
    rfl
  | cons first rest ih =>
    rw [List.cons_append, readFrom_cons pending first, ih (sound.after first),
      readFrom_cons pending first, List.append_assoc]

theorem append_eq_append_cons {α : Type} {u v x y : List α} {c : α} (same : u ++ v = x ++ c :: y)
    (free : c ∉ u) : ∃ rest, x = u ++ rest ∧ v = rest ++ c :: y := by
  rcases List.append_eq_append_iff.mp same with ⟨rest, rfl, rfl⟩ | ⟨rest, rfl, shifted⟩
  · exact ⟨rest, rfl, rfl⟩
  · cases rest with
    | nil => exact ⟨[], by simp, by simpa using shifted.symm⟩
    | cons d others =>
      obtain ⟨rfl, _⟩ := List.cons.inj shifted
      exact absurd (List.mem_append_right _ List.mem_cons_self) free

theorem ascii_not_mem_readFrom_nil (pending : Option Partial) {c : Char} (ascii : c.toNat < 0x80) :
    c ∉ readFrom pending [] := by
  intro member
  rw [readFrom_nil] at member
  split at member
  next =>
    obtain rfl : c = '\uFFFD' := by simpa using member
    exact absurd ascii (by decide)
  next => cases member

/-- An ASCII character of the text is a byte, and the text splits where that byte stands. -/
theorem exists_of_readFrom {pending : Option Partial} (sound : SoundPending pending)
    {bytes : Bytes} {x y : List Char} {c : Char} (ascii : c.toNat < 0x80)
    (read : readFrom pending bytes = x ++ c :: y) :
    ∃ a z, bytes = a ++ UInt8.ofNat c.toNat :: z ∧ readFrom pending a = x ∧
      readFrom none z = y := by
  induction bytes generalizing pending x with
  | nil =>
    have member : c ∈ readFrom pending [] :=
      read ▸ List.mem_append_right _ List.mem_cons_self
    exact absurd member (ascii_not_mem_readFrom_nil pending ascii)
  | cons b rest ih =>
    by_cases low : b < 0x80
    · rw [readFrom_ascii sound low] at read
      obtain ⟨others, rfl, parted⟩ :=
        append_eq_append_cons read (ascii_not_mem_readFrom_nil pending ascii)
      cases others with
      | nil =>
        obtain ⟨rfl, behind⟩ := List.cons.inj parted
        have byte : UInt8.ofNat (Char.ofNat b.toNat).toNat = b := by
          have small : b.toNat < 0x80 := low
          rw [Char.toNat_ofNat, if_pos (.inl (by omega)), UInt8.ofNat_toNat]
        exact ⟨[], rest, by rw [byte]; rfl, (List.append_nil _).symm, behind⟩
      | cons d others =>
        obtain ⟨rfl, behind⟩ := List.cons.inj parted
        obtain ⟨a, z, rfl, before, after⟩ := ih .none behind
        exact ⟨b :: a, z, rfl, by rw [readFrom_ascii sound low, before], after⟩
    · have past : 0x80 ≤ b := UInt8.not_lt.mp low
      have free : c ∉ emitted pending b := fun member =>
        absurd ascii (Nat.not_lt.mpr (past_of_mem_emitted sound past member))
      rw [readFrom_cons] at read
      obtain ⟨others, rfl, behind⟩ := append_eq_append_cons read free
      obtain ⟨a, z, rfl, before, after⟩ := ih (sound.after b) behind
      exact ⟨b :: a, z, rfl, by rw [readFrom_cons, before], after⟩

def IsAscii (word : List Char) : Prop := ∀ c ∈ word, c.toNat < 0x80

instance (word : List Char) : Decidable (IsAscii word) :=
  decidable_of_iff (word.all fun c => c.toNat < 0x80) (by simp [IsAscii])

def asciiBytes (word : List Char) : Bytes := word.map fun c => UInt8.ofNat c.toNat

theorem ofNat_lt_ascii {c : Char} (ascii : c.toNat < 0x80) : UInt8.ofNat c.toNat < 0x80 := by
  rw [UInt8.lt_iff_toNat_lt, UInt8.toNat_ofNat_of_lt' (by simp [UInt8.size]; omega)]
  exact ascii

theorem readFrom_word {word : List Char} (ascii : IsAscii word) (rest : Bytes) :
    readFrom none (asciiBytes word ++ rest) = word ++ readFrom none rest := by
  induction word with
  | nil => rfl
  | cons c others ih =>
    obtain ⟨first, last⟩ := List.forall_mem_cons.mp ascii
    have char : Char.ofNat (UInt8.ofNat c.toNat).toNat = c := by
      rw [UInt8.toNat_ofNat_of_lt' (by simp [UInt8.size]; omega), Char.ofNat_toNat]
    change readFrom none (UInt8.ofNat c.toNat :: (asciiBytes others ++ rest)) = _
    rw [readFrom_ascii .none (ofNat_lt_ascii first), ih last, char]
    rfl

theorem readFrom_append_word {word : List Char} (ascii : IsAscii word) (front : Bytes) :
    readFrom none (front ++ asciiBytes word) = readFrom none front ++ word := by
  cases word with
  | nil => exact (congrArg _ (List.append_nil _)).trans (List.append_nil _).symm
  | cons c others =>
    have first := ofNat_lt_ascii (ascii c List.mem_cons_self)
    have alone := readFrom_word ascii []
    rw [List.append_nil] at alone
    refine (readFrom_append .none front first (asciiBytes others)).trans ?_
    exact congrArg _ (alone.trans (List.append_nil _))

/-- A text that begins with a word of ASCII is read from bytes that begin with it. -/
theorem exists_of_readFrom_word {word : List Char} (ascii : IsAscii word) {bytes : Bytes}
    {y : List Char} (read : readFrom none bytes = word ++ y) :
    ∃ z, bytes = asciiBytes word ++ z ∧ readFrom none z = y := by
  induction word generalizing bytes with
  | nil => exact ⟨bytes, rfl, read⟩
  | cons c others ih =>
    obtain ⟨first, last⟩ := List.forall_mem_cons.mp ascii
    obtain ⟨a, behind, rfl, before, after⟩ := exists_of_readFrom .none (x := []) first read
    have empty : a = [] := by
      by_contra some
      exact readFrom_ne_nil (.inr some) before
    obtain ⟨z, rfl, rest⟩ := ih last after
    exact ⟨z, by rw [empty]; rfl, rest⟩

end ImageDerivative.Utf8
