import Mathlib
import ImageDerivative.Codec.FileBackend
import ImageDerivative.Proofs.Numerals
import ImageDerivative.Proofs.Text.Lower

/-! The key of a recipe. Its bytes can be read in one way only, although numbers in it
may hold the byte that separates its parts: each part before a separator either has a
length that its first bytes tell or is a text without separators. So the key tells all
that shapes a derivative, and recipes of one key make the same derivative. -/
namespace ImageDerivative

theorem append_separator_inj {α : Type} {separator : α} {xs ys s t : List α}
    (free : separator ∉ xs) (also : separator ∉ ys)
    (same : xs ++ separator :: s = ys ++ separator :: t) : xs = ys ∧ s = t := by
  induction xs generalizing ys with
  | nil =>
    cases ys with
    | nil => exact ⟨rfl, (List.cons.inj same).2⟩
    | cons y ys => exact absurd (List.cons.inj same).1 (by simp at also; exact also.1)
  | cons x xs ih =>
    cases ys with
    | nil => exact absurd (List.cons.inj same).1.symm (by simp at free; exact free.1)
    | cons y ys =>
      obtain ⟨rfl, rest⟩ := List.cons.inj same
      simp only [List.mem_cons, not_or] at free also
      obtain ⟨rfl, rfl⟩ := ih free.2 also.2 rest
      exact ⟨rfl, rfl⟩

namespace Bytes

theorem toLittleEndian_inj {width m n : Nat} (small : m < 256 ^ width) (short : n < 256 ^ width)
    (same : toLittleEndian width m = toLittleEndian width n) : m = n := by
  rw [← ofLittleEndian_toLittleEndian small, same, ofLittleEndian_toLittleEndian short]

theorem ofText_inj {a b : String} (same : ofText a = ofText b) : a = b := by
  have data : a.toUTF8.data = b.toUTF8.data := Array.toList_inj.mp same
  exact String.toByteArray_inj.mp (ByteArray.ext data)

end Bytes

def ScaleMode.InRange : ScaleMode → Prop
  | .full | .percent _ => True
  | .width n | .height n => n < 0x100000000
  | .fit w h | .exact w h => w < 0x100000000 ∧ h < 0x100000000

namespace Recipe

structure InRange (recipe : Recipe) : Prop where
  mode : recipe.mode.InRange
  quality : recipe.quality.value < 0x100000000

/-- All that the key covers. -/
structure Agree (a b : Recipe) : Prop where
  mode : a.mode = b.mode
  kernel : a.kernel = b.kernel
  policy : a.kernel = none → a.policy = b.policy
  sharpen : a.sharpen = b.sharpen
  linear : a.linear = b.linear
  quality : a.quality = b.quality
  extension : Path.lowerExtension a.output = Path.lowerExtension b.output

/-- The number of a mode, by the bytes that begin its key. -/
def modeIndex : Bytes → Nat
  | 0x77 :: _ => 1
  | 0x68 :: _ => 2
  | 0x65 :: _ => 4
  | 0x70 :: _ => 5
  | 0x66 :: 0x69 :: _ => 3
  | _ => 0

def indexOf : ScaleMode → Nat
  | .full => 0
  | .width _ => 1
  | .height _ => 2
  | .fit _ _ => 3
  | .exact _ _ => 4
  | .percent _ => 5

theorem modeIndex_append (mode : ScaleMode) (rest : Bytes) :
    modeIndex (modeBytes mode ++ rest) = indexOf mode := by
  cases mode with
  | full => rfl
  | width => rfl
  | height => rfl
  | fit => rfl
  | exact => rfl
  | percent => rfl

theorem length_modeBytes (mode : ScaleMode) :
    (modeBytes mode).length = [4, 5, 5, 11, 13, 11].getD (indexOf mode) 0 := by
  cases mode with
  | full => rfl
  | width => rfl
  | height => rfl
  | fit => rfl
  | exact => rfl
  | percent => rfl

theorem modeBytes_append_inj {a b : ScaleMode} {s t : Bytes}
    (same : modeBytes a ++ s = modeBytes b ++ t) :
    indexOf a = indexOf b ∧ modeBytes a = modeBytes b ∧ s = t := by
  have index : indexOf a = indexOf b := by
    rw [← modeIndex_append a s, same, modeIndex_append]
  exact ⟨index, List.append_inj same (by rw [length_modeBytes, length_modeBytes, index])⟩

theorem word_inj {m n : Nat} (small : m < 0x100000000) (short : n < 0x100000000)
    (same : Bytes.toLittleEndian 4 m = Bytes.toLittleEndian 4 n) : m = n :=
  Bytes.toLittleEndian_inj small short same

theorem words_inj {m n k l : Nat} (small : m < 0x100000000 ∧ n < 0x100000000)
    (short : k < 0x100000000 ∧ l < 0x100000000)
    (same : Bytes.toLittleEndian 4 m ++ Bytes.toLittleEndian 4 n =
      Bytes.toLittleEndian 4 k ++ Bytes.toLittleEndian 4 l) : m = k ∧ n = l := by
  obtain ⟨first, last⟩ := List.append_inj same (by simp)
  exact ⟨word_inj small.1 short.1 first, word_inj small.2 short.2 last⟩

theorem modeBytes_inj {a b : ScaleMode} (small : a.InRange) (short : b.InRange)
    (index : indexOf a = indexOf b) (same : modeBytes a = modeBytes b) : a = b := by
  cases a with
  | full =>
    cases b with
    | full => rfl
    | width | height | fit | exact | percent => cases index
  | width m =>
    cases b with
    | width n => exact congrArg _ (word_inj small short (List.append_cancel_left same))
    | full | height | fit | exact | percent => cases index
  | height m =>
    cases b with
    | height n => exact congrArg _ (word_inj small short (List.append_cancel_left same))
    | full | width | fit | exact | percent => cases index
  | fit m n =>
    cases b with
    | fit k l =>
      simp only [modeBytes, List.append_assoc] at same
      obtain ⟨rfl, rfl⟩ := words_inj small short (List.append_cancel_left same)
      rfl
    | full | width | height | exact | percent => cases index
  | exact m n =>
    cases b with
    | exact k l =>
      simp only [modeBytes, List.append_assoc] at same
      obtain ⟨rfl, rfl⟩ := words_inj small short (List.append_cancel_left same)
      rfl
    | full | width | height | fit | percent => cases index
  | percent x =>
    cases b with
    | percent y =>
      have bits := Bytes.toLittleEndian_inj x.bits.toNat_lt y.bits.toNat_lt
        (List.append_cancel_left same)
      exact congrArg (fun bits => ScaleMode.percent ⟨bits⟩) (UInt64.toNat_inj.mp bits)
    | full | width | height | fit | exact => cases index

/-- Names of kernels hold neither the byte between parts nor the one between names. -/
theorem name_free (kernel : Kernel) :
    0 ∉ Bytes.ofText kernel.name ∧ 0x2F ∉ Bytes.ofText kernel.name := by
  cases kernel <;> decide

theorem name_inj {a b : Kernel} (same : Bytes.ofText a.name = Bytes.ofText b.name) : a = b := by
  have known := Kernel.ofName?_name a
  rw [Bytes.ofText_inj same, Kernel.ofName?_name] at known
  exact (Option.some.inj known).symm

theorem kernelBytes_append_inj {a b : Option Kernel} {p q : KernelPolicy} {s t : Bytes}
    (same : kernelBytes a p ++ 0 :: s = kernelBytes b q ++ 0 :: t) :
    a = b ∧ (a = none → p = q) ∧ s = t := by
  cases a with
  | some a =>
    cases b with
    | none => cases same
    | some b =>
      obtain ⟨names, rest⟩ := append_separator_inj (name_free a).1 (name_free b).1
        (List.cons.inj same).2
      rw [name_inj names]
      exact ⟨rfl, nofun, rest⟩
  | none =>
    cases b with
    | some b => cases same
    | none =>
      have free (policy : KernelPolicy) : 0 ∉ Bytes.ofText policy.downscale.name ++
          0x2F :: Bytes.ofText policy.upscale.name := by
        simp only [List.mem_append, List.mem_cons, not_or]
        exact ⟨(name_free _).1, by decide, (name_free _).1⟩
      have parts (policy : KernelPolicy) : kernelBytes none policy =
          0 :: (Bytes.ofText policy.downscale.name ++ 0x2F :: Bytes.ofText policy.upscale.name) := by
        rw [kernelBytes, List.append_assoc]
        rfl
      rw [parts, parts] at same
      obtain ⟨names, rest⟩ := append_separator_inj (free p) (free q) (List.cons.inj same).2
      obtain ⟨down, up⟩ := append_separator_inj (name_free _).2 (name_free _).2 names
      refine ⟨rfl, fun _ => ?_, rest⟩
      cases p
      cases q
      cases name_inj down
      cases name_inj up
      rfl

theorem agree_of_keyBytes_eq {a b : Recipe} (small : a.InRange) (short : b.InRange)
    (same : a.keyBytes = b.keyBytes) : a.Agree b := by
  have parts (recipe : Recipe) : recipe.keyBytes = Bytes.ofText "derive" ++ [0] ++
      (modeBytes recipe.mode ++ 0 :: (kernelBytes recipe.kernel recipe.policy ++
        0 :: (Bytes.toLittleEndian 4 recipe.sharpen.bits.toNat ++
          ([if recipe.linear then 1 else 0] ++ (Bytes.toLittleEndian 4 recipe.quality.value ++
            Bytes.ofText (Path.lowerExtension recipe.output)))))) := by
    simp only [keyBytes, List.append_assoc, List.cons_append, List.nil_append]
  rw [parts, parts] at same
  obtain ⟨index, modes, rest⟩ := modeBytes_append_inj (List.append_cancel_left same)
  obtain ⟨kernel, policy, rest⟩ := kernelBytes_append_inj (List.cons.inj rest).2
  obtain ⟨sharpen, rest⟩ := List.append_inj rest (by simp)
  obtain ⟨linear, rest⟩ := List.append_inj rest rfl
  obtain ⟨quality, extension⟩ := List.append_inj rest (by simp)
  have bits := Bytes.toLittleEndian_inj a.sharpen.bits.toNat_lt b.sharpen.bits.toNat_lt sharpen
  have value := word_inj small.quality short.quality quality
  exact {
    mode := modeBytes_inj small.mode short.mode index modes
    kernel
    policy
    sharpen := congrArg Binary32.mk (UInt32.toNat_inj.mp bits)
    linear := by
      have flag : (if a.linear then (1 : UInt8) else 0) = if b.linear then 1 else 0 :=
        (List.cons.inj linear).1
      cases first : a.linear <;> cases second : b.linear <;> simp [first, second] at flag ⊢
    quality := congrArg Quality.mk value
    extension := Bytes.ofText_inj extension }

theorem Agree.kernelBytes_eq {a b : Recipe} (agree : a.Agree b) :
    kernelBytes a.kernel a.policy = kernelBytes b.kernel b.policy := by
  rw [← agree.kernel]
  cases given : a.kernel with
  | some kernel => rfl
  | none => rw [agree.policy given]

theorem Agree.keyBytes_eq {a b : Recipe} (agree : a.Agree b) : a.keyBytes = b.keyBytes := by
  unfold keyBytes
  rw [agree.mode, agree.kernelBytes_eq, agree.sharpen, agree.linear, agree.quality,
    agree.extension]

theorem agree_iff {a b : Recipe} (small : a.InRange) (short : b.InRange) :
    a.keyBytes = b.keyBytes ↔ a.Agree b :=
  ⟨agree_of_keyBytes_eq small short, Agree.keyBytes_eq⟩

theorem Agree.chooseKernel_eq {a b : Recipe} (agree : a.Agree b) (source target : Size) :
    chooseKernel a.kernel source target a.policy = chooseKernel b.kernel source target b.policy := by
  rw [← agree.kernel]
  cases given : a.kernel with
  | some kernel => rfl
  | none => rw [agree.policy given]

theorem Agree.outputFormat_eq {a b : Recipe} (agree : a.Agree b) :
    FileBackend.outputFormat a.output = FileBackend.outputFormat b.output := by
  unfold FileBackend.outputFormat
  rw [Text.lower_eq_of_toLower_eq agree.extension]

/-- A backend that cannot tell the paths of two recipes apart makes the same of them. -/
theorem Agree.derive_eq {σ : Type} {a b : Recipe} (agree : a.Agree b) {backend : Backend σ}
    (sources : backend.decode a.source = backend.decode b.source)
    (outputs : ∀ bitmap, backend.encode bitmap a.output a.quality =
      backend.encode bitmap b.output a.quality) (pool : WorkerPool) :
    derive backend a pool = derive backend b pool := by
  unfold derive
  simp only [sources, outputs, agree.mode, agree.chooseKernel_eq, agree.sharpen, agree.linear,
    ← agree.quality]

structure Handed where
  bitmap : Bitmap
  format : Except BackendError Format
  quality : Quality

/-- Every file is this raster, and what is to be encoded is written down. -/
def recorder (source : Raster) : Backend (List Handed) where
  identify _ := return source.dimensions
  decode _ := return source
  encode bitmap output quality :=
    modify (· ++ [⟨bitmap, FileBackend.outputFormat output, quality⟩])

/-- Recipes of one key have the same bitmap encoded, in the same format and quality. -/
theorem derive_recorder_eq {a b : Recipe} (agree : a.Agree b) (source : Raster) (pool : WorkerPool)
    (handed : List Handed) :
    derive (recorder source) a pool handed = derive (recorder source) b pool handed := by
  have outputs (bitmap : Bitmap) : (recorder source).encode bitmap a.output a.quality =
      (recorder source).encode bitmap b.output a.quality := by
    simp only [recorder, agree.outputFormat_eq]
  rw [agree.derive_eq rfl outputs]

end Recipe

end ImageDerivative
