import ImageDerivative.Proofs.Toml.Merging
import ImageDerivative.Toml.Document

/-! No table of a document has a key twice. The tree of a document under way has the same
keys as the value that is made of it in the end, and every line keeps them distinct. -/
namespace ImageDerivative

namespace TomlValue.WellFormed

theorem empty : (TomlValue.table []).WellFormed := .table List.nodup_nil (List.forall_mem_nil _)

theorem put {fields : Dict TomlValue} (wellFormed : (TomlValue.table fields).WellFormed)
    (key : String) {value : TomlValue} (fits : value.WellFormed) :
    (TomlValue.table (fields.put key value)).WellFormed := by
  refine .table (wellFormed.distinct.put key value) fun field member => ?_
  have found := (wellFormed.distinct.put key value).get?_eq member
  rw [Dict.get?_put] at found
  split at found
  · rwa [← Option.some.inj found]
  · exact wellFormed.of_get? found

end TomlValue.WellFormed

namespace Toml

/-- The items make a well-formed table. -/
def Items.WellFormed (items : Items) : Prop := (TomlValue.table (toFields items)).WellFormed

theorem get?_toFields (items : Items) (key : String) :
    Dict.get? (toFields items) key = (Dict.get? items key).map Item.toValue := by
  induction items with
  | nil => rfl
  | cons entry rest ih =>
    obtain ⟨name, item⟩ := entry
    rw [toFields, Dict.get?_cons, Dict.get?_cons, ih]
    split <;> rfl

theorem toFields_put (items : Items) (key : String) (item : Item) :
    toFields (Dict.put items key item) = Dict.put (toFields items) key item.toValue := by
  induction items with
  | nil => rfl
  | cons entry rest ih =>
    obtain ⟨name, old⟩ := entry
    rw [toFields, Dict.put, Dict.put]
    split
    · rw [toFields]
    · rw [toFields, ih]

theorem toElements_eq (elements : List Items) :
    toElements elements = elements.map fun items => .table (toFields items) := by
  induction elements with
  | nil => rfl
  | cons items rest ih => rw [toElements, ih, List.map_cons]

theorem wellFormed_tables {elements : List Items} :
    (Item.tables elements).toValue.WellFormed ↔ ∀ items ∈ elements, Items.WellFormed items := by
  rw [Item.toValue, toElements_eq]
  constructor
  · intro wellFormed items member
    cases wellFormed with
    | array each => exact each _ (List.mem_map.mpr ⟨items, member, rfl⟩)
  · intro each
    refine .array fun value member => ?_
    obtain ⟨items, among, rfl⟩ := List.mem_map.mp member
    exact each items among

namespace Items.WellFormed

variable {items inner changed : Items} {key : String}

theorem nil : Items.WellFormed [] := TomlValue.WellFormed.empty

theorem of_get? (wellFormed : Items.WellFormed items) {item : Item}
    (found : Dict.get? items key = some item) : item.toValue.WellFormed := by
  have kept : Dict.get? (toFields items) key = some item.toValue := by
    rw [get?_toFields, found]
    rfl
  exact TomlValue.WellFormed.of_get? wellFormed kept

theorem put (wellFormed : Items.WellFormed items) (key : String) {item : Item}
    (fits : item.toValue.WellFormed) : Items.WellFormed (Dict.put items key item) := by
  rw [Items.WellFormed, toFields_put]
  exact TomlValue.WellFormed.put wellFormed key fits

/-- What keeps one table well-formed may be done to the table at the end of a path. -/
theorem changeAt {keys : Bool} {change : Bool → Items → Option Items}
    (kept : ∀ dotted items changed, Items.WellFormed items → change dotted items = some changed →
      Items.WellFormed changed) {path : List String} {dotted : Bool}
    (wellFormed : Items.WellFormed items)
    (done : changeAt keys change path dotted items = some changed) : Items.WellFormed changed := by
  induction path generalizing dotted items changed with
  | nil => exact kept dotted items changed wellFormed done
  | cons key path ih =>
    rw [Toml.changeAt] at done
    cases found : Dict.get? items key with
    | none =>
      simp only [found, Option.bind_eq_bind, Option.bind_eq_some_iff, Option.pure_def,
        Option.some.injEq] at done
      obtain ⟨inner, below, rfl⟩ := done
      exact wellFormed.put key (ih nil below)
    | some item =>
      have fits := wellFormed.of_get? found
      cases item with
      | value value => simp only [found, reduceCtorEq] at done
      | table implicit dotted inner =>
        simp only [found] at done
        split at done
        · contradiction
        · simp only [Option.bind_eq_bind, Option.bind_eq_some_iff, Option.pure_def,
            Option.some.injEq] at done
          obtain ⟨inner', below, rfl⟩ := done
          exact wellFormed.put key (ih fits below)
      | tables elements =>
        simp only [found] at done
        cases reversed : elements.reverse with
        | nil => simp only [reversed, reduceCtorEq] at done
        | cons last before =>
          simp only [reversed, Option.bind_eq_bind, Option.bind_eq_some_iff, Option.pure_def,
            Option.some.injEq] at done
          obtain ⟨last', below, rfl⟩ := done
          refine wellFormed.put key (wellFormed_tables.mpr fun items member => ?_)
          have each := wellFormed_tables.mp fits
          have among : ∀ items ∈ last :: before, items ∈ elements := by
            intro items member
            rwa [← List.mem_reverse, reversed]
          cases List.mem_cons.mp (List.mem_reverse.mp member) with
          | inl here =>
            rw [here]
            exact ih (each last (among last List.mem_cons_self)) below
          | inr earlier => exact each items (among items (List.mem_cons_of_mem _ earlier))

theorem bind (wellFormed : Items.WellFormed items) {path : List String} {value : TomlValue}
    (fits : value.WellFormed) (done : bind path value items = some changed) :
    Items.WellFormed changed := by
  unfold Toml.bind at done
  split at done
  · contradiction
  · refine wellFormed.changeAt (fun dotted items changed wellFormed bound => ?_) done
    split at bound
    · contradiction
    · rw [← Option.some.inj bound]
      exact wellFormed.put _ fits

theorem openTable (wellFormed : Items.WellFormed items) {path : List String}
    (done : openTable path items = some changed) : Items.WellFormed changed := by
  unfold Toml.openTable at done
  split at done
  · contradiction
  · refine wellFormed.changeAt (fun _ items changed wellFormed opened => ?_) done
    split at opened
    · rw [← Option.some.inj opened]
      exact wellFormed.put _ .empty
    · rename_i found
      have fits := wellFormed.of_get? found
      rw [← Option.some.inj opened]
      exact wellFormed.put _ fits
    · contradiction

theorem openElement (wellFormed : Items.WellFormed items) {path : List String}
    (done : openElement path items = some changed) : Items.WellFormed changed := by
  unfold Toml.openElement at done
  split at done
  · contradiction
  · refine wellFormed.changeAt (fun _ items changed wellFormed opened => ?_) done
    split at opened
    · rw [← Option.some.inj opened]
      exact wellFormed.put _ (wellFormed_tables.mpr (List.forall_mem_singleton.mpr nil))
    · rename_i found
      rw [← Option.some.inj opened]
      have each := wellFormed_tables.mp (wellFormed.of_get? found)
      refine wellFormed.put _ (wellFormed_tables.mpr ?_)
      exact List.forall_mem_append.mpr ⟨each, List.forall_mem_singleton.mpr nil⟩
    · contradiction

end Items.WellFormed

def Yields {β : Type} (P : β → Prop) (outcome : Option (β × Chars)) : Prop :=
  ∀ b rest, outcome = some (b, rest) → P b

namespace Yields

variable {β γ : Type} {P : β → Prop}

theorem none : Yields P none := by
  intro b rest read
  contradiction

theorem pure {b : β} {rest : Chars} (fits : P b) : Yields P (some (b, rest)) := by
  intro b rest read
  cases read
  exact fits

theorem bind {first : Option γ} {next : γ → Option (β × Chars)}
    (each : ∀ c, first = some c → Yields P (next c)) : Yields P (first >>= next) := by
  intro b rest read
  rw [Option.bind_eq_bind, Option.bind_eq_some_iff] at read
  obtain ⟨c, found, read⟩ := read
  exact each c found b rest read

end Yields

theorem yields_datetime (cs : Chars) : Yields TomlValue.WellFormed (readDatetime? cs) := by
  unfold readDatetime?
  repeat' first
    | refine .bind fun _ _ => ?_
    | split
    | exact .pure (.datetime _)

theorem yields_float (cs : Chars) : Yields TomlValue.WellFormed (readFloat? cs) := by
  unfold readFloat?
  repeat' first
    | refine .bind fun _ _ => ?_
    | split
    | dsimp only
    | exact .none
    | exact .pure (.float _)

theorem yields_integer (cs : Chars) : Yields TomlValue.WellFormed (readInteger? cs) := by
  have integer : ∀ n value, integerValue? n = some value → value.WellFormed := by
    intro n value read
    unfold integerValue? at read
    split at read
    · cases read
      exact .integer n
    · contradiction
  unfold readInteger?
  dsimp only
  split
  all_goals exact .bind fun _ _ => .bind fun value read => .pure (integer _ value read)

theorem yields_numeric (cs : Chars) : Yields TomlValue.WellFormed (readNumeric? cs) := by
  unfold readNumeric?
  split
  · exact yields_datetime cs
  · cases float : readFloat? cs with
    | none => exact yields_integer cs
    | some read => exact .pure (yields_float cs read.1 read.2 float)

theorem yields_string (cs : Chars) : Yields TomlValue.WellFormed
    ((readString? cs).map fun (text, rest) => (.string text, rest)) := by
  cases readString? cs with
  | none => exact .none
  | some read => exact .pure (.string read.1)

/-- With so much fuel, values, the items of arrays and the pairs of tables are well-formed. -/
structure ReadsWellFormed (fuel : Nat) : Prop where
  value : ∀ depth cs, Yields TomlValue.WellFormed (readValue fuel depth cs)
  items : ∀ depth cs, Yields (fun items => ∀ item ∈ items, item.WellFormed)
    (readItems fuel depth cs)
  pairs : ∀ depth items cs, Items.WellFormed items →
    Yields Items.WellFormed (readPairs fuel depth items cs)

theorem readsWellFormed (fuel : Nat) : ReadsWellFormed fuel := by
  induction fuel with
  | zero => exact ⟨fun _ _ => .none, fun _ _ => .none, fun _ _ _ _ => .none⟩
  | succ fuel ih =>
    refine ⟨fun depth cs => ?_, fun depth cs => ?_, fun depth items cs wellFormed => ?_⟩
    · unfold readValue
      split
      · split
        · exact .none
        · exact .bind fun read found => .pure (.array (ih.items _ _ _ _ found))
      · split
        · exact .none
        · split
          · exact .pure .empty
          · exact .bind fun read found => .pure (ih.pairs _ _ _ .nil _ _ found)
      · exact .pure (.boolean true)
      · exact .pure (.boolean false)
      · exact yields_string _
      · exact yields_string _
      · exact yields_numeric cs
    · unfold readItems
      split
      · exact .pure (List.forall_mem_nil _)
      · refine .bind ?_
        rintro ⟨item, rest⟩ found
        have head := ih.value _ _ _ _ found
        dsimp only
        split
        · refine .bind fun later found => .pure ?_
          exact List.forall_mem_cons.mpr ⟨head, ih.items _ _ _ _ found⟩
        · exact .pure (List.forall_mem_singleton.mpr head)
        · exact .none
    · unfold readPairs
      refine .bind fun key _ => .bind fun behind _ => .bind fun read found => .bind fun bound done => ?_
      have fits := wellFormed.bind (ih.value _ _ _ _ found) done
      split
      · exact ih.pairs _ _ _ fits
      · exact .pure fits
      · exact .none

theorem yields_readLine {draft : Draft} (wellFormed : Items.WellFormed draft.root) (cs : Chars) :
    Yields (fun later => Items.WellFormed later.root) (readLine draft cs) := by
  unfold readLine
  split
  · exact .bind fun key _ => .bind fun _ _ => .bind fun behind _ => .bind fun root done =>
      .bind fun rest _ => .pure (wellFormed.openElement done)
  · exact .bind fun key _ => .bind fun behind _ => .bind fun root done =>
      .bind fun rest _ => .pure (wellFormed.openTable done)
  · split
    · exact .pure wellFormed
    · split
      · exact .bind fun rest _ => .pure wellFormed
      · refine .bind fun key _ => .bind fun behind _ => .bind fun read found =>
          .bind fun root done => .bind fun rest _ => .pure ?_
        have fits := (readsWellFormed _).value _ _ _ _ found
        exact wellFormed.changeAt (fun _ items changed kept bound => kept.bind fits bound) done

theorem wellFormed_readLines {fuel : Nat} {draft last : Draft} {cs : Chars}
    (wellFormed : Items.WellFormed draft.root) (read : readLines fuel draft cs = some last) :
    Items.WellFormed last.root := by
  induction fuel generalizing draft cs with
  | zero =>
    cases cs with
    | nil => rwa [← Option.some.inj read]
    | cons c rest => contradiction
  | succ fuel ih =>
    cases cs with
    | nil => rwa [← Option.some.inj read]
    | cons c rest =>
      simp only [readLines, Option.bind_eq_bind, Option.bind_eq_some_iff] at read
      obtain ⟨line, found, read⟩ := read
      exact ih (yields_readLine wellFormed _ _ _ found) read

/-- No table of a document has a key twice. -/
theorem wellFormed_of_parse? {source : String} {value : TomlValue}
    (parsed : parse? source = some value) : value.WellFormed := by
  unfold parse? at parsed
  rw [Option.bind_eq_bind, Option.bind_eq_some_iff] at parsed
  obtain ⟨draft, read, parsed⟩ := parsed
  rw [← Option.some.inj parsed]
  exact wellFormed_readLines Items.WellFormed.nil read

end Toml

end ImageDerivative
