import Mathlib.Data.List.Nodup
import Mathlib.Tactic.Common
import ImageDerivative.Config

/-! Settings of which each writes a field of its own. The order in which a table gives their
values makes no difference: what it stands for can be told from the value, if any, that it
has for each of them. -/
namespace ImageDerivative

variable {α : Type}

/-- Two updates that may fail, and that have one outcome in either order. -/
def Interchange (f g : α → Option α) : Prop := ∀ a, (f a).bind g = (g a).bind f

namespace Interchange

variable {f g h : α → Option α}

theorem symm (apart : Interchange f g) : Interchange g f := fun a => (apart a).symm

theorem unchanged (g : α → Option α) : Interchange some g := by
  intro a
  rw [Option.bind_some, Option.bind_fun_some]

theorem failed (g : α → Option α) : Interchange (fun _ => none) g := by
  intro a
  rw [Option.bind_none, Option.bind_fun_none]

theorem followed (first : Interchange f h) (second : Interchange g h) :
    Interchange (fun a => (f a).bind g) h := by
  intro a
  calc ((f a).bind g).bind h = (f a).bind fun b => (h b).bind g := by
        rw [Option.bind_assoc]
        exact Option.bind_congr fun b _ => second b
    _ = ((h a).bind f).bind g := by rw [← Option.bind_assoc, first a]
    _ = (h a).bind fun b => (f b).bind g := Option.bind_assoc ..

end Interchange

namespace Setting

/-- Whatever the two settings are given, it may be put in either order. -/
def Apart (s t : Setting α) : Prop := ∀ v w, Interchange (s.put? · v) (t.put? · w)

/-- Two settings that write what they read to places that do not overlap. -/
theorem Apart.of_writes {β γ : Type} {read : TomlValue → Option β} {read' : TomlValue → Option γ}
    {write : α → β → α} {write' : α → γ → α} {key key' : String}
    (elsewhere : ∀ a b c, write' (write a b) c = write (write' a c) b) :
    Apart ⟨key, fun a v => do return write a (← read v)⟩
      ⟨key', fun a v => do return write' a (← read' v)⟩ := by
  intro v w a
  simp only [bind, pure]
  cases read v with
  | none => exact Interchange.failed _ a
  | some b =>
    cases read' w with
    | none => rfl
    | some c => exact congrArg some (elsewhere a b c)

/-- The settings have a name and a field of their own each. -/
structure Independent (settings : List (Setting α)) : Prop where
  names : (settings.map name).Nodup
  apart : settings.Pairwise Apart

variable {settings others : List (Setting α)} {g : α → Option α}

theorem ofFields_cons_some {key : String} {setting : Setting α}
    (found : (settings.find? fun s => s.name = key) = some setting) (value : TomlValue)
    (rest : List (String × TomlValue)) : ofFields settings ((key, value) :: rest) =
      fun a => (setting.put? a value).bind (ofFields settings rest) := by
  funext a
  rw [ofFields, found]
  rfl

theorem ofFields_cons_none {key : String}
    (unknown : (settings.find? fun s => s.name = key) = none) (value : TomlValue)
    (rest : List (String × TomlValue)) :
    ofFields settings ((key, value) :: rest) = fun _ => none := by
  funext a
  rw [ofFields, unknown]
  rfl

theorem interchange_ofItems (each : ∀ s ∈ settings, ∀ v, Interchange (s.put? · v) g)
    (items : List TomlValue) : Interchange (ofItems settings items) g := by
  induction settings generalizing items with
  | nil =>
    cases items with
    | nil => exact .unchanged g
    | cons value rest => exact .failed g
  | cons setting settings ih =>
    cases items with
    | nil => exact .unchanged g
    | cons value rest =>
      have head := each setting List.mem_cons_self value
      exact head.followed (ih (fun s member => each s (List.mem_cons_of_mem _ member)) rest)

theorem interchange_ofFields (each : ∀ s ∈ settings, ∀ v, Interchange (s.put? · v) g)
    (fields : List (String × TomlValue)) : Interchange (ofFields settings fields) g := by
  induction fields with
  | nil => exact .unchanged g
  | cons field rest ih =>
    obtain ⟨key, value⟩ := field
    cases found : settings.find? fun s => s.name = key with
    | none =>
      rw [ofFields_cons_none found]
      exact .failed g
    | some setting =>
      rw [ofFields_cons_some found]
      exact (each setting (List.mem_of_find?_eq_some found) value).followed ih

theorem interchange_decode (each : ∀ s ∈ settings, ∀ v, Interchange (s.put? · v) g)
    (value : TomlValue) : Interchange (decode settings value) g := by
  cases value with
  | table fields => exact interchange_ofFields each fields
  | array items => exact interchange_ofItems each items
  | _ => exact .failed g

theorem interchange_groups (apart : ∀ s ∈ settings, ∀ t ∈ others, Apart s t)
    (value other : TomlValue) : Interchange (decode settings value) (decode others other) := by
  refine interchange_decode (fun s member v => ?_) value
  exact (interchange_decode (fun t member' w => (apart s member t member' v w).symm) other).symm

/-- Puts a value that is there, and lets the settings be if there is none. -/
def take? (setting : Setting α) : Option TomlValue → α → Option α
  | some value, a => setting.put? a value
  | none, a => some a

/-- Every setting takes what there is for its name. -/
def fill (values : String → Option TomlValue) : List (Setting α) → α → Option α
  | [], a => some a
  | setting :: settings, a => (setting.take? (values setting.name) a).bind (fill values settings)

theorem fill_nil (settings : List (Setting α)) (a : α) :
    fill (Dict.get? []) settings a = some a := by
  induction settings with
  | nil => rfl
  | cons setting settings ih => exact ih

theorem Apart.take? {s t : Setting α} (apart : Apart s t) (v w : Option TomlValue) :
    Interchange (s.take? v) (t.take? w) := by
  cases v with
  | none => exact .unchanged _
  | some v =>
    cases w with
    | none => exact (Interchange.unchanged _).symm
    | some w => exact apart v w

/-- Values that make no difference to any one setting make none to all of them. -/
theorem fill_congr (apart : settings.Pairwise Apart) {values values' : String → Option TomlValue}
    {a : α} (same : ∀ s ∈ settings, s.take? (values s.name) a = s.take? (values' s.name) a) :
    fill values settings a = fill values' settings a := by
  induction settings generalizing a with
  | nil => rfl
  | cons setting settings ih =>
    obtain ⟨first, rest⟩ := List.pairwise_cons.mp apart
    rw [fill, fill, same setting List.mem_cons_self]
    refine Option.bind_congr fun b taken => ih rest fun s member => ?_
    -- What `s` makes of the two values was the same before `setting` took its own.
    have before := same s (List.mem_cons_of_mem _ member)
    have moved : ∀ v, s.take? v b = (s.take? v a).bind (setting.take? (values' setting.name)) := by
      intro v
      rw [← (first s member).take? _ v a, taken, Option.bind_some]
    rw [moved, moved, before]

theorem fill_unnamed (apart : settings.Pairwise Apart) {key : String}
    (unnamed : key ∉ settings.map name) (value : TomlValue) (fields : Dict TomlValue) (a : α) :
    fill (Dict.get? ((key, value) :: fields)) settings a = fill fields.get? settings a := by
  refine fill_congr apart fun s member => ?_
  have other : key ≠ s.name := fun same => unnamed (List.mem_map.mpr ⟨s, member, same.symm⟩)
  rw [Dict.get?_cons, if_neg other]

/-- A value may be put before all others are. -/
theorem fill_cons (independent : Independent settings) {setting : Setting α}
    (member : setting ∈ settings) {fields : Dict TomlValue}
    (fresh : fields.get? setting.name = none) (value : TomlValue) (a : α) :
    fill (Dict.get? ((setting.name, value) :: fields)) settings a =
      (setting.put? a value).bind (fill fields.get? settings) := by
  induction settings generalizing a with
  | nil => contradiction
  | cons first settings ih =>
    obtain ⟨unused, named⟩ := List.nodup_cons.mp independent.names
    obtain ⟨away, apart⟩ := List.pairwise_cons.mp independent.apart
    cases List.mem_cons.mp member with
    | inl here =>
      subst here
      have rest : fill (Dict.get? ((setting.name, value) :: fields)) settings =
          fill fields.get? settings := funext (fill_unnamed apart unused value fields)
      have absent : fill fields.get? (setting :: settings) = fill fields.get? settings := by
        funext b
        rw [fill, fresh]
        rfl
      rw [fill, rest, absent, Dict.get?_cons, if_pos rfl]
      rfl
    | inr there =>
      have other : setting.name ≠ first.name := fun same =>
        unused (List.mem_map.mpr ⟨setting, there, same⟩)
      rw [fill, Dict.get?_cons, if_neg other]
      calc (first.take? (fields.get? first.name) a).bind
            (fill (Dict.get? ((setting.name, value) :: fields)) settings)
          = (first.take? (fields.get? first.name) a).bind fun b =>
              (setting.put? b value).bind (fill fields.get? settings) :=
            Option.bind_congr fun b _ => ih ⟨named, apart⟩ there b
        _ = ((first.take? (fields.get? first.name) a).bind (setting.take? (some value))).bind
              (fill fields.get? settings) := (Option.bind_assoc ..).symm
        _ = ((setting.put? a value).bind (first.take? (fields.get? first.name))).bind
              (fill fields.get? settings) := by
            rw [(away setting there).take? _ (some value) a]
            rfl
        _ = (setting.put? a value).bind (fill fields.get? (first :: settings)) :=
            Option.bind_assoc ..

theorem find?_name (names : (settings.map name).Nodup) {setting : Setting α}
    (member : setting ∈ settings) :
    (settings.find? fun s => s.name = setting.name) = some setting := by
  induction settings with
  | nil => contradiction
  | cons first settings ih =>
    obtain ⟨unused, names⟩ := List.nodup_cons.mp names
    cases List.mem_cons.mp member with
    | inl here =>
      rw [← here]
      exact List.find?_cons_of_pos (decide_eq_true rfl)
    | inr there =>
      rw [List.find?_cons_of_neg, ih names there]
      intro same
      exact unused (List.mem_map.mpr ⟨setting, there, (of_decide_eq_true same).symm⟩)

/-- A table stands for what each setting takes from it, whatever the order of its fields. -/
theorem ofFields_eq_fill (independent : Independent settings) {fields : Dict TomlValue}
    (distinct : fields.Distinct) (known : fields.map Prod.fst ⊆ settings.map name) (a : α) :
    ofFields settings fields a = fill fields.get? settings a := by
  induction fields generalizing a with
  | nil =>
    exact (fill_nil settings a).symm
  | cons field rest ih =>
    obtain ⟨key, value⟩ := field
    obtain ⟨fresh, others⟩ := List.nodup_cons.mp distinct
    obtain ⟨here, later⟩ := List.cons_subset.mp known
    obtain ⟨setting, member, rfl⟩ := List.mem_map.mp here
    have absent : Dict.get? rest setting.name = none := Dict.get?_eq_none_iff.mpr fresh
    rw [ofFields_cons_some (find?_name independent.names member),
      fill_cons independent member absent, ← funext (ih others later)]

/-- A table with a key that no setting has stands for nothing. -/
theorem ofFields_eq_none {fields : Dict TomlValue}
    (unknown : ¬ fields.map Prod.fst ⊆ settings.map name) (a : α) :
    ofFields settings fields a = none := by
  induction fields generalizing a with
  | nil => exact absurd (List.nil_subset _) unknown
  | cons field rest ih =>
    obtain ⟨key, value⟩ := field
    cases found : settings.find? fun s => s.name = key with
    | none => rw [ofFields_cons_none found]
    | some setting =>
      have named : setting.name = key := by simpa using List.find?_some found
      have here : key ∈ settings.map name :=
        List.mem_map.mpr ⟨setting, List.mem_of_find?_eq_some found, named⟩
      have refused : ofFields settings rest = fun _ => none :=
        funext (ih fun later => unknown (List.cons_subset.mpr ⟨here, later⟩))
      rw [ofFields_cons_some found, refused]
      exact Option.bind_fun_none _

end Setting

end ImageDerivative
