import Mathlib.Tactic.Common

/-! Chains of computations. Where one succeeds, each part of it has; where one fails, some
part has. And chains of items, of which one more tells one thing more or nothing. -/
namespace ImageDerivative

theorem except_bind_eq_ok {ε α β : Type} {first : Except ε α} {next : α → Except ε β} {b : β} :
    first >>= next = .ok b ↔ ∃ a, first = .ok a ∧ next a = .ok b := by
  cases first <;> simp [bind, Except.bind]

theorem except_mapError_eq_ok {ε δ α : Type} {made : Except ε α} {wrap : ε → δ} {a : α} :
    made.mapError wrap = .ok a ↔ made = .ok a := by
  cases made <;> simp [Except.mapError]

theorem state_bind_eq_ok {ε σ α β : Type} {first : EStateM ε σ α} {next : α → EStateM ε σ β}
    {s t : σ} {b : β} :
    (first >>= next) s = .ok b t ↔ ∃ a between, first s = .ok a between ∧ next a between = .ok b t := by
  simp only [bind, EStateM.bind]
  cases first s <;> simp

theorem state_bind_eq_error {ε σ α β : Type} {first : EStateM ε σ α} {next : α → EStateM ε σ β}
    {s t : σ} {error : ε} :
    (first >>= next) s = .error error t ↔ first s = .error error t ∨
      ∃ a between, first s = .ok a between ∧ next a between = .error error t := by
  simp only [bind, EStateM.bind]
  cases first s <;> simp

theorem filterMap_concat {α β : Type} (told? : α → Option β) (items : List α) (item : α) :
    (items ++ [item]).filterMap told? = items.filterMap told? ++ (told? item).toList := by
  rw [List.filterMap_append, List.filterMap_cons, List.filterMap_nil]
  cases told? item with
  | none => rfl
  | some _ => rfl

theorem findSome?_cons_or {α β : Type} (told? : α → Option β) (item : α) (items : List α) :
    (item :: items).findSome? told? = (told? item).or (items.findSome? told?) := by
  rw [List.findSome?_cons]
  cases told? item with
  | none => rw [Option.none_or]
  | some _ => rw [Option.some_or]

theorem getLast?_append_toList {α : Type} (items : List α) (told : Option α) :
    (items ++ told.toList).getLast? = told.or items.getLast? := by
  cases told with
  | none => rw [Option.toList_none, List.append_nil, Option.none_or]
  | some _ => rw [Option.toList_some, List.getLast?_concat, Option.some_or]

end ImageDerivative
