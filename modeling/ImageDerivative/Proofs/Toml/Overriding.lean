import Mathlib.Tactic.Common
import ImageDerivative.Proofs.Toml.Merging

/-! Laying one value over another, seen along a path of keys: what is no table in the overlay
replaces all that the base has there, and anything else of the base shows through. -/
namespace ImageDerivative.TomlValue

/-- What a value has under a key. Only a table has anything. -/
def field? : TomlValue → String → Option TomlValue
  | .table fields, key => Dict.get? fields key
  | _, _ => none

def at? : TomlValue → (path : List String) → Option TomlValue
  | value, [] => some value
  | value, key :: path => (value.field? key).bind fun inner => inner.at? path

theorem field?_of_not_table {value : TomlValue} (plain : ¬ value.IsTable) (key : String) :
    value.field? key = none := by
  cases value with
  | table fields => exact absurd trivial plain
  | _ => rfl

theorem WellFormed.of_field? {value inner : TomlValue} (wellFormed : value.WellFormed)
    {key : String} (found : value.field? key = some inner) : inner.WellFormed := by
  cases value with
  | table fields => exact wellFormed.of_get? found
  | _ => contradiction

theorem WellFormed.of_at? {value inner : TomlValue} (wellFormed : value.WellFormed)
    {path : List String} (found : value.at? path = some inner) : inner.WellFormed := by
  induction path generalizing value with
  | nil => rwa [← Option.some.inj found]
  | cons key path ih =>
    obtain ⟨next, under, found⟩ := Option.bind_eq_some_iff.mp found
    exact ih (wellFormed.of_field? under) found

theorem at?_append (value : TomlValue) (front rest : List String) :
    value.at? (front ++ rest) = (value.at? front).bind fun inner => inner.at? rest := by
  induction front generalizing value with
  | nil => rfl
  | cons key front ih =>
    simp only [List.cons_append, at?, ih, Option.bind_assoc]

/-- Nothing stands behind what is no table. -/
theorem at?_beyond {value inner : TomlValue} {front path : List String} (reached : front <+: path)
    (proper : front ≠ path) (found : value.at? front = some inner) (plain : ¬ inner.IsTable) :
    value.at? path = none := by
  obtain ⟨rest, rfl⟩ := reached
  cases rest with
  | nil => exact absurd (List.append_nil front).symm proper
  | cons key rest =>
    rw [at?_append, found, Option.bind_some, at?, field?_of_not_table plain, Option.bind_none]

/-- Only tables are met in `value` on the way to the end of the path. -/
def Passes (value : TomlValue) (path : List String) : Prop :=
  ∀ front, front <+: path → front ≠ path → ∀ inner, value.at? front = some inner → inner.IsTable

namespace Passes

variable {value : TomlValue} {path : List String}

theorem of_at? {inner : TomlValue} (found : value.at? path = some inner) : value.Passes path := by
  intro front reached proper met under
  by_contra plain
  rw [at?_beyond reached proper under plain] at found
  cases found

theorem isTable {key : String} (passes : value.Passes (key :: path)) : value.IsTable :=
  passes [] List.nil_prefix (List.cons_ne_nil _ _).symm value rfl

theorem of_field? {inner : TomlValue} {key : String} (passes : value.Passes (key :: path))
    (under : value.field? key = some inner) : inner.Passes path := by
  intro front reached proper met found
  refine passes (key :: front) (List.cons_prefix_cons.mpr ⟨rfl, reached⟩) ?_ met ?_
  · exact fun same => proper (List.cons_inj_right key |>.mp same)
  · rw [at?, under, Option.bind_some, found]

end Passes

/-- What is there if `below` is in the base and `above` in the overlay. -/
def laid (below above : Option TomlValue) : Option TomlValue :=
  match above, below with
  | some value, some old => some (old.merge value)
  | some value, none => some value
  | none, below => below

theorem field?_merge {overlay : TomlValue} (wellFormed : overlay.WellFormed)
    (isTable : overlay.IsTable) (base : TomlValue) (key : String) :
    (base.merge overlay).field? key = laid (base.field? key) (overlay.field? key) := by
  cases overlay with
  | table above =>
    by_cases both : base.IsTable
    · cases base with
      | table below =>
        rw [merge]
        exact get?_mergeFields wellFormed.distinct below key
      | _ => contradiction
    · rw [merge_of_not_table both, field?_of_not_table both]
      cases (table above).field? key <;> rfl
  | _ => contradiction

/-- The two values meet wherever the overlay does not end the path before. -/
theorem at?_merge {overlay : TomlValue} (wellFormed : overlay.WellFormed) {path : List String}
    (passes : overlay.Passes path) (base : TomlValue) :
    (base.merge overlay).at? path = laid (base.at? path) (overlay.at? path) := by
  induction path generalizing base overlay with
  | nil => rfl
  | cons key path ih =>
    rw [at?, at?, at?, field?_merge wellFormed passes.isTable]
    cases above : overlay.field? key with
    | none => rfl
    | some value =>
      cases below : base.field? key with
      | none =>
        rw [Option.bind_none, Option.bind_some, laid, Option.bind_some]
        cases value.at? path <;> rfl
      | some old => exact ih (wellFormed.of_field? above) (passes.of_field? above) old

/-- What is no table in the overlay is there as it is. -/
theorem at?_merge_of_not_table {overlay value : TomlValue} (wellFormed : overlay.WellFormed)
    {path : List String} (found : overlay.at? path = some value) (plain : ¬ value.IsTable)
    (base : TomlValue) : (base.merge overlay).at? path = some value := by
  rw [at?_merge wellFormed (Passes.of_at? found), found]
  cases base.at? path with
  | none => rfl
  | some old =>
    cases value with
    | table fields => exact absurd trivial plain
    | _ => simp only [laid, merge]

/-- A table of the overlay keeps its keys and gets those that the base has in a table there. -/
theorem at?_merge_table {overlay : TomlValue} (wellFormed : overlay.WellFormed)
    {path : List String} {fields : Dict TomlValue} (found : overlay.at? path = some (.table fields))
    (base : TomlValue) :
    ∃ merged, (base.merge overlay).at? path = some (.table merged) ∧
      ∀ key, key ∈ merged.map Prod.fst ↔ key ∈ fields.map Prod.fst ∨
        ∃ below, base.at? path = some (.table below) ∧ key ∈ below.map Prod.fst := by
  have distinct := (wellFormed.of_at? found).distinct
  rw [at?_merge wellFormed (Passes.of_at? found), found]
  by_cases both : ∃ below, base.at? path = some (.table below)
  · obtain ⟨below, there⟩ := both
    refine ⟨mergeFields below fields, by rw [there, laid, merge], fun key => ?_⟩
    simp only [there, Option.some.injEq, table.injEq, exists_eq_left',
      mem_keys_mergeFields distinct]
    exact or_comm
  · refine ⟨fields, ?_, fun key => ?_⟩
    · cases there : base.at? path with
      | none => rfl
      | some old =>
        have plain : ¬ old.IsTable := by
          intro isTable
          cases old with
          | table below => exact both ⟨below, there⟩
          | _ => contradiction
        rw [laid, merge_of_not_table plain]
    · constructor
      · exact .inl
      · rintro (here | ⟨below, there, -⟩)
        · exact here
        · exact absurd ⟨below, there⟩ both

/-- Fields that are in place already change nothing. -/
theorem mergeFields_eq_self {base : Dict TomlValue} {overlay : List (String × TomlValue)}
    (settled : ∀ field ∈ overlay, ∃ old, base.get? field.1 = some old ∧ old.merge field.2 = old) :
    mergeFields base overlay = base := by
  induction overlay with
  | nil => rw [mergeFields]
  | cons field rest ih =>
    obtain ⟨⟨old, here, same⟩, others⟩ := List.forall_mem_cons.mp settled
    rw [mergeFields, here]
    simp only [same]
    rw [Dict.put_of_get? here, ih others]

theorem merge_merge {overlay : TomlValue} (wellFormed : overlay.WellFormed) (base : TomlValue) :
    (base.merge overlay).merge overlay = base.merge overlay := by
  induction wellFormed generalizing base with
  | @table fields distinct each ih =>
    -- Over what is no table a value lies alone, so it does not change itself either.
    have self : ∀ field ∈ fields, field.2.merge field.2 = field.2 := by
      intro field member
      have plain : ¬ (TomlValue.boolean false).IsTable := id
      have again := ih field member (.boolean false)
      rwa [merge_of_not_table plain] at again
    by_cases both : base.IsTable
    · cases base with
      | table below =>
        rw [merge, merge]
        refine congrArg table (mergeFields_eq_self fun field member => ?_)
        rw [get?_mergeFields distinct, distinct.get?_eq member]
        cases Dict.get? below field.1 with
        | none => exact ⟨field.2, rfl, self field member⟩
        | some old => exact ⟨old.merge field.2, rfl, ih field member old⟩
      | _ => contradiction
    · rw [merge_of_not_table both, merge]
      refine congrArg table (mergeFields_eq_self fun field member => ?_)
      exact ⟨field.2, distinct.get?_eq member, self field member⟩
  | _ => simp only [merge]

/-- At every path the merge has the overlay's value where that is no table, and nothing behind
it; it has the base's value where the overlay has nothing in the way; and where the overlay has
a table, it has one with the keys of both. The same overlay once more changes nothing. -/
theorem merge_overrides {overlay : TomlValue} (wellFormed : overlay.WellFormed)
    (base : TomlValue) :
    (∀ path value, overlay.at? path = some value → ¬ value.IsTable →
      (base.merge overlay).at? path = some value) ∧
    (∀ path, overlay.at? path = none →
      (∀ front, front <+: path → ∀ value, overlay.at? front = some value → value.IsTable) →
      (base.merge overlay).at? path = base.at? path) ∧
    (∀ front path, front <+: path → front ≠ path →
      ∀ value, overlay.at? front = some value → ¬ value.IsTable →
      (base.merge overlay).at? path = none) ∧
    (∀ path fields, overlay.at? path = some (.table fields) →
      ∃ merged, (base.merge overlay).at? path = some (.table merged) ∧
        ∀ key, key ∈ merged.map Prod.fst ↔ key ∈ fields.map Prod.fst ∨
          ∃ below, base.at? path = some (.table below) ∧ key ∈ below.map Prod.fst) ∧
    (base.merge overlay).merge overlay = base.merge overlay := by
  refine ⟨?_, ?_, ?_, ?_, merge_merge wellFormed base⟩
  · intro path value found plain
    exact at?_merge_of_not_table wellFormed found plain base
  · intro path absent clear
    rw [at?_merge wellFormed fun front reached _ => clear front reached, absent]
    cases base.at? path <;> rfl
  · intro front path reached proper value found plain
    have there := at?_merge_of_not_table wellFormed found plain base
    exact at?_beyond reached proper there plain
  · intro path fields found
    exact at?_merge_table wellFormed found base

/-- A table with a setting of its own and one in common, and a table that is replaced. -/
def lowerSample : TomlValue := .table [
  ("scale", .table [("quality", .integer 90), ("linear_output", .boolean false)]),
  ("log", .table [("level", .string "info")])]

def upperSample : TomlValue := .table [
  ("log", .string "off"),
  ("scale", .table [("sharpen", .integer 1), ("quality", .integer 70)])]

theorem wellFormed_upperSample : upperSample.WellFormed := by
  refine .table (by rw [Dict.Distinct]; decide) (List.forall_mem_cons.mpr ⟨.string _, ?_⟩)
  refine List.forall_mem_singleton.mpr (.table (by rw [Dict.Distinct]; decide) ?_)
  exact List.forall_mem_cons.mpr ⟨.integer _, List.forall_mem_singleton.mpr (.integer _)⟩

theorem merge_overrides_sample :
    upperSample.WellFormed ∧
    (lowerSample.merge upperSample).at? ["scale", "quality"] = some (.integer 70) ∧
    (lowerSample.merge upperSample).at? ["scale", "linear_output"] = some (.boolean false) ∧
    (lowerSample.merge upperSample).at? ["log", "level"] = none ∧
    ∃ merged, (lowerSample.merge upperSample).at? ["scale"] = some (.table merged) ∧
      "linear_output" ∈ merged.map Prod.fst := by
  obtain ⟨replaced, shown, ended, united, -⟩ := merge_overrides wellFormed_upperSample lowerSample
  have clear : ∀ front, front <+: ["scale", "linear_output"] →
      ∀ value, upperSample.at? front = some value → value.IsTable := by
    intro front reached value found
    rcases List.prefix_cons_iff.mp reached with rfl | ⟨rest, rfl, behind⟩
    · cases found
      trivial
    rcases List.prefix_cons_iff.mp behind with rfl | ⟨rest, rfl, -⟩
    · cases found
      trivial
    · cases found
  obtain ⟨merged, there, keys⟩ := united ["scale"] _ rfl
  refine ⟨wellFormed_upperSample, replaced _ _ rfl id, shown _ rfl clear, ?_, merged, there, ?_⟩
  · exact ended ["log"] _ (by decide) (by decide) _ rfl id
  · exact (keys _).mpr (.inr ⟨_, rfl, by decide⟩)

end ImageDerivative.TomlValue
