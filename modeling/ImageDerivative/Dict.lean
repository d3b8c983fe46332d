/-! Finite maps from texts, as lists of pairs with distinct keys in the order in
which the keys were first put. -/
namespace ImageDerivative

abbrev Dict (α : Type) := List (String × α)

namespace Dict

variable {α : Type}

def get? (dict : Dict α) (key : String) : Option α :=
  (dict.find? fun entry => entry.1 = key).map Prod.snd

def contains (dict : Dict α) (key : String) : Bool := (get? dict key).isSome

def erase (dict : Dict α) (key : String) : Dict α := dict.filter fun entry => entry.1 ≠ key

/-- Binds `key` to `value`; a key that is bound keeps its place. -/
def put : Dict α → String → α → Dict α
  | [], key, value => [(key, value)]
  | entry :: rest, key, value =>
    if entry.1 = key then (key, value) :: rest else entry :: put rest key value

/-- The map of a list of pairs, in which the last pair of a key counts. -/
def ofPairs (pairs : List (String × α)) : Dict α :=
  pairs.foldl (fun dict entry => put dict entry.1 entry.2) []

@[simp] theorem get?_nil (key : String) : get? ([] : Dict α) key = none := rfl

theorem get?_cons (entry : String × α) (rest : Dict α) (key : String) :
    get? (entry :: rest) key = if entry.1 = key then some entry.2 else get? rest key := by
  by_cases same : entry.1 = key <;> simp [get?, same]

theorem get?_put (dict : Dict α) (key other : String) (value : α) :
    get? (put dict key value) other = if key = other then some value else get? dict other := by
  induction dict with
  | nil => simp [put, get?_cons]
  | cons entry rest ih =>
    by_cases same : entry.1 = key
    · subst same
      by_cases here : entry.1 = other <;> simp [put, get?_cons, here]
    · rw [put, if_neg same, get?_cons, get?_cons, ih]
      by_cases here : entry.1 = other
      · have : key ≠ other := fun h => same (here.trans h.symm)
        simp [here, this]
      · simp [here]

/-- Binding a key to the value it has changes nothing. -/
theorem put_of_get? {dict : Dict α} {key : String} {value : α} (found : get? dict key = some value) :
    put dict key value = dict := by
  induction dict with
  | nil => contradiction
  | cons entry rest ih =>
    rw [get?_cons] at found
    split at found
    next same =>
      obtain ⟨k, v⟩ := entry
      cases found
      cases same
      exact if_pos rfl
    next other => rw [put, if_neg other, ih found]

theorem erase_cons (entry : String × α) (rest : Dict α) (key : String) :
    erase (entry :: rest) key = if entry.1 = key then erase rest key else entry :: erase rest key := by
  by_cases same : entry.1 = key <;> simp [erase, same]

theorem get?_erase (dict : Dict α) (key other : String) :
    get? (erase dict key) other = if key = other then none else get? dict other := by
  induction dict with
  | nil => simp [erase]
  | cons entry rest ih =>
    rw [erase_cons, get?_cons]
    by_cases same : entry.1 = key
    · rw [if_pos same, ih, same]
      by_cases here : key = other <;> simp only [here, if_true, if_false]
    · rw [if_neg same, get?_cons, ih]
      by_cases here : key = other
      · simp only [here, if_true, if_neg (here ▸ same)]
      · simp only [here, if_false]

theorem mem_of_get? {dict : Dict α} {key : String} {value : α} (found : get? dict key = some value) :
    (key, value) ∈ dict := by
  induction dict with
  | nil => contradiction
  | cons entry rest ih =>
    rw [get?_cons] at found
    split at found
    next same =>
      obtain ⟨k, v⟩ := entry
      cases found
      cases same
      exact List.mem_cons_self
    next => exact List.mem_cons_of_mem _ (ih found)

theorem get?_eq_none_iff {dict : Dict α} {key : String} :
    get? dict key = none ↔ key ∉ dict.map Prod.fst := by
  rw [get?, Option.map_eq_none_iff, List.find?_eq_none, List.mem_map]
  constructor
  · rintro absent ⟨entry, member, same⟩
    exact absent entry member (decide_eq_true same)
  · intro fresh entry member same
    exact fresh ⟨entry, member, of_decide_eq_true same⟩

def Distinct (dict : Dict α) : Prop := (dict.map Prod.fst).Nodup

namespace Distinct

theorem get?_eq {dict : Dict α} (distinct : Distinct dict) {key : String} {value : α}
    (member : (key, value) ∈ dict) : get? dict key = some value := by
  induction dict with
  | nil => contradiction
  | cons entry rest ih =>
    obtain ⟨fresh, others⟩ := List.nodup_cons.mp distinct
    rw [get?_cons]
    cases List.mem_cons.mp member with
    | inl here => rw [← here, if_pos rfl]
    | inr there =>
      have other : entry.1 ≠ key := fun same =>
        fresh (List.mem_map.mpr ⟨(key, value), there, same.symm⟩)
      rw [if_neg other, ih others there]

theorem erase {dict : Dict α} (distinct : Distinct dict) (key : String) :
    Distinct (erase dict key) :=
  List.Nodup.sublist (List.Sublist.map Prod.fst List.filter_sublist) distinct

theorem put {dict : Dict α} (distinct : Distinct dict) (key : String) (value : α) :
    Distinct (put dict key value) := by
  have keys : ∀ (dict : Dict α) (other : String), other ∈ (Dict.put dict key value).map Prod.fst →
      other = key ∨ other ∈ dict.map Prod.fst := by
    intro dict
    induction dict with
    | nil => simp [Dict.put]
    | cons entry rest ih =>
      intro other
      by_cases same : entry.1 = key
      · simp [Dict.put, same]
      · simp only [Dict.put, if_neg same, List.map_cons, List.mem_cons]
        intro member
        cases member with
        | inl here => exact .inr (.inl here)
        | inr there => exact (ih other there).imp_right .inr
  induction dict with
  | nil => simp [Dict.put, Distinct]
  | cons entry rest ih =>
    obtain ⟨fresh, others⟩ := List.nodup_cons.mp distinct
    by_cases same : entry.1 = key
    · rw [Dict.put, if_pos same]
      exact List.nodup_cons.mpr ⟨by rwa [← same], others⟩
    · rw [Dict.put, if_neg same]
      refine List.nodup_cons.mpr ⟨fun member => ?_, ih others⟩
      exact (keys rest entry.1 member).elim same fresh

end Distinct

theorem put_of_not_mem {dict : Dict α} {key : String} (fresh : key ∉ dict.map Prod.fst)
    (value : α) : put dict key value = dict ++ [(key, value)] := by
  induction dict with
  | nil => rfl
  | cons entry rest ih =>
    simp only [List.map_cons, List.mem_cons, not_or] at fresh
    rw [put, if_neg (Ne.symm fresh.1), ih fresh.2, List.cons_append]

theorem ofPairs_eq {pairs : List (String × α)} (distinct : Distinct pairs) : ofPairs pairs = pairs := by
  have extended : ∀ (pairs : List (String × α)) (dict : Dict α), Distinct (dict ++ pairs) →
      pairs.foldl (fun dict entry => put dict entry.1 entry.2) dict = dict ++ pairs := by
    intro pairs
    induction pairs with
    | nil => intro dict _; rw [List.foldl_nil, List.append_nil]
    | cons entry rest ih =>
      intro dict distinct
      have fresh : entry.1 ∉ dict.map Prod.fst := by
        rw [Distinct, List.map_append, List.map_cons, List.nodup_append] at distinct
        exact fun member => distinct.2.2 _ member _ List.mem_cons_self rfl
      rw [List.foldl_cons, put_of_not_mem fresh]
      rw [ih _ (by rwa [List.append_assoc]), List.append_assoc, List.singleton_append]
  exact extended pairs [] distinct

theorem get?_ofPairs (pairs : List (String × α)) (key : String) :
    get? (ofPairs pairs) key = (pairs.reverse.find? fun entry => entry.1 = key).map Prod.snd := by
  have extended : ∀ dict : Dict α,
      get? (pairs.foldl (fun dict entry => put dict entry.1 entry.2) dict) key =
        ((pairs.reverse.find? fun entry => entry.1 = key).map Prod.snd).or (get? dict key) := by
    induction pairs with
    | nil => intro dict; rfl
    | cons entry rest ih =>
      intro dict
      rw [List.foldl_cons, ih, get?_put, List.reverse_cons, List.find?_append]
      cases rest.reverse.find? fun entry => entry.1 = key with
      | some found => rfl
      | none =>
        by_cases same : entry.1 = key <;> simp [same]
  rw [ofPairs, extended, get?_nil, Option.or_none]

end Dict

end ImageDerivative
