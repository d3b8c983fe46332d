import Mathlib.Tactic.Common
import ImageDerivative.Toml.Value

/-! Laying one value over another, seen from a key: where the overlay has nothing, the base
shows through; where both have something, their values are laid over each other. -/
namespace ImageDerivative.TomlValue

/-- No table in the value has a key twice, as none in a document has. -/
inductive WellFormed : TomlValue → Prop where
  | string (text : String) : WellFormed (.string text)
  | integer (value : Int) : WellFormed (.integer value)
  | float (value : Float) : WellFormed (.float value)
  | boolean (value : Bool) : WellFormed (.boolean value)
  | datetime (text : String) : WellFormed (.datetime text)
  | array {items : List TomlValue} (each : ∀ item ∈ items, WellFormed item) :
      WellFormed (.array items)
  | table {fields : List (String × TomlValue)} (distinct : Dict.Distinct fields)
      (each : ∀ field ∈ fields, WellFormed field.2) : WellFormed (.table fields)

theorem WellFormed.distinct {fields : Dict TomlValue}
    (wellFormed : (TomlValue.table fields).WellFormed) : fields.Distinct := by
  cases wellFormed with
  | table distinct _ => exact distinct

theorem WellFormed.of_get? {fields : Dict TomlValue} (wellFormed : (TomlValue.table fields).WellFormed)
    {key : String} {value : TomlValue} (found : fields.get? key = some value) :
    value.WellFormed := by
  cases wellFormed with
  | table _ each => exact each (key, value) (Dict.mem_of_get? found)

def IsTable : TomlValue → Prop
  | table _ => True
  | _ => False

theorem merge_of_not_table {base : TomlValue} (plain : ¬ base.IsTable) (overlay : TomlValue) :
    base.merge overlay = overlay := by
  cases overlay with
  | table fields =>
    cases base with
    | table below => exact absurd trivial plain
    | _ => simp only [merge]
  | _ => simp only [merge]

theorem get?_mergeFields {overlay : Dict TomlValue} (distinct : overlay.Distinct)
    (base : Dict TomlValue) (key : String) :
    (mergeFields base overlay).get? key =
      match overlay.get? key, base.get? key with
      | some value, some old => some (old.merge value)
      | some value, none => some value
      | none, below => below := by
  induction overlay generalizing base with
  | nil =>
    rw [mergeFields, Dict.get?_nil]
  | cons entry rest ih =>
    obtain ⟨name, value⟩ := entry
    obtain ⟨fresh, others⟩ := List.nodup_cons.mp distinct
    rw [mergeFields, ih others, Dict.get?_put, Dict.get?_cons]
    by_cases same : name = key
    · -- The key is not met again, so what is put now is what stays.
      subst same
      have absent : Dict.get? rest name = none := Dict.get?_eq_none_iff.mpr fresh
      rw [absent, if_pos rfl, if_pos rfl]
      cases base.get? name <;> rfl
    · rw [if_neg same, if_neg same]

theorem mem_keys_mergeFields {overlay : Dict TomlValue} (distinct : overlay.Distinct)
    (base : Dict TomlValue) (key : String) : key ∈ (mergeFields base overlay).map Prod.fst ↔
      key ∈ base.map Prod.fst ∨ key ∈ overlay.map Prod.fst := by
  rw [← not_iff_not, not_or, ← Dict.get?_eq_none_iff, ← Dict.get?_eq_none_iff,
    ← Dict.get?_eq_none_iff, get?_mergeFields distinct]
  cases overlay.get? key <;> cases base.get? key <;> simp

theorem distinct_mergeFields {base : Dict TomlValue} (distinct : base.Distinct)
    (overlay : Dict TomlValue) : (mergeFields base overlay).Distinct := by
  induction overlay generalizing base with
  | nil =>
    rw [mergeFields]
    exact distinct
  | cons entry rest ih =>
    rw [mergeFields]
    exact ih (distinct.put _ _)

end ImageDerivative.TomlValue
