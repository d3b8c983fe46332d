import Mathlib
import ImageDerivative.CommandLine.Request
import ImageDerivative.Proofs.Imaging.Rendering

/-! The numbers of a command line are in range. What every option, flag and place of a form
keeps is kept by the reading of any arguments; so the axes that are read fit their fields,
and with them the numbers of the recipe. -/
namespace ImageDerivative.CommandLine

/-- A change that leads from drafts with a property only to such drafts. -/
def Keeping {σ : Type} (P : σ → Prop) (change : σ → Option σ) : Prop :=
  ∀ ⦃before after⦄, P before → change before = some after → P after

def Accepting {σ : Type} (P : σ → Prop) (put : String → σ → Option σ) : Prop :=
  ∀ text, Keeping P (put text)

structure Form.Keeps {σ : Type} (P : σ → Prop) (form : Form σ) : Prop where
  flags : ∀ flag ∈ form.flags, Keeping P flag.2
  options : ∀ option ∈ form.options, Accepting P option.2
  places : ∀ put ∈ form.places, Accepting P put

def Pending.Keeps {σ : Type} (P : σ → Prop) : Pending σ → Prop
  | .nothing => True
  | .value put => Accepting P put
  | .change put => Keeping P put

structure Reading.Keeps {σ : Type} (P : σ → Prop) (reading : Reading σ) : Prop where
  draft : P reading.draft
  pending : reading.pending.Keeps P
  places : ∀ put ∈ reading.places, Accepting P put

variable {σ : Type} {P : σ → Prop}

namespace Reading.Keeps

variable {reading after : Reading σ}

theorem accept (keeps : reading.Keeps P) {change : σ → Option σ} (keeping : Keeping P change)
    (ran : reading.accept change = .ok after) : after.Keeps P := by
  unfold Reading.accept at ran
  split at ran
  next draft changed =>
    cases ran
    exact ⟨keeping keeps.draft changed, trivial, keeps.places⟩
  next => cases ran

theorem close (keeps : reading.Keeps P) (ran : reading.close = .ok after) : after.Keeps P := by
  have kept := keeps.pending
  unfold Reading.close at ran
  split at ran
  next =>
    cases ran
    exact keeps
  next => cases ran
  next put pending =>
    rw [pending] at kept
    exact keeps.accept kept ran

theorem place (keeps : reading.Keeps P) {argument : String}
    (ran : reading.place argument = .ok after) : after.Keeps P := by
  obtain ⟨closed, ended, rest⟩ := except_bind_eq_ok.mp ran
  have keeps := keeps.close ended
  have free := keeps.places
  cases places : closed.places with
  | nil =>
    rw [places] at rest
    cases rest
  | cons put others =>
    rw [places] at rest free
    cases rest
    exact ⟨keeps.draft, free put List.mem_cons_self argument,
      fun other member => free other (List.mem_cons_of_mem _ member)⟩

theorem placeAll (keeps : reading.Keeps P) {arguments : List String}
    (ran : reading.placeAll arguments = .ok after) : after.Keeps P := by
  induction arguments generalizing reading with
  | nil =>
    cases ran
    exact keeps
  | cons argument rest ih =>
    obtain ⟨placed, ended, ran⟩ := except_bind_eq_ok.mp ran
    exact ih (keeps.place ended) ran

end Reading.Keeps

/-- A page that is asked for ends the reading. -/
theorem Reading.stop_ne_ok {reading after : Reading σ} {page : Stop} :
    reading.stop page ≠ .ok after := by
  intro ran
  obtain ⟨_, _, stopped⟩ := except_bind_eq_ok.mp ran
  cases stopped

namespace Form.Keeps

variable {form : Form σ}

theorem lookup {α : Type} {Q : α → Prop} {entries : List (String × α)}
    (all : ∀ entry ∈ entries, Q entry.2) {name : String} {found : α}
    (ran : Form.lookup name entries = some found) : Q found := by
  obtain ⟨entry, listed, rfl⟩ := Option.map_eq_some_iff.mp ran
  exact all entry (List.mem_of_find?_eq_some listed)

theorem readOption (form_keeps : form.Keeps P) {reading after : Reading σ}
    (keeps : reading.Keeps P) {name : String} {value : Option String}
    (ran : form.readOption reading name value = .ok after) : after.Keeps P := by
  unfold Form.readOption at ran
  cases found : Form.lookup name form.options with
  | some put =>
    have accepting := lookup form_keeps.options found
    cases value with
    | some value =>
      simp only [found] at ran
      obtain ⟨closed, ended, rest⟩ := except_bind_eq_ok.mp ran
      exact (keeps.close ended).accept (accepting value) rest
    | none =>
      simp only [found] at ran
      obtain ⟨closed, ended, rest⟩ := except_bind_eq_ok.mp ran
      have keeps := keeps.close ended
      cases rest
      exact ⟨keeps.draft, accepting, keeps.places⟩
  | none =>
    cases value with
    | some value =>
      simp only [found] at ran
      cases ran
    | none =>
      simp only [found] at ran
      split at ran
      · exact absurd ran Reading.stop_ne_ok
      · split at ran
        · exact absurd ran Reading.stop_ne_ok
        · split at ran
          next put raised =>
            obtain ⟨closed, ended, rest⟩ := except_bind_eq_ok.mp ran
            exact (keeps.close ended).accept (lookup form_keeps.flags raised) rest
          next => cases ran

theorem readArgument (form_keeps : form.Keeps P) {reading after : Reading σ}
    (keeps : reading.Keeps P) {argument : String}
    (ran : form.readArgument reading argument = .ok after) : after.Keeps P := by
  unfold Form.readArgument at ran
  split at ran
  · exact form_keeps.readOption keeps ran
  · exact absurd ran Reading.stop_ne_ok
  · split at ran
    · exact absurd ran Reading.stop_ne_ok
    · cases ran
  · cases ran
  · have kept := keeps.pending
    split at ran
    next put pending =>
      rw [pending] at kept
      cases ran
      exact ⟨keeps.draft, kept argument, keeps.places⟩
    next => exact keeps.place ran

theorem read (form_keeps : form.Keeps P) {reading : Reading σ} (keeps : reading.Keeps P)
    {arguments : List String} {after : Reading σ × Option (String × List String)}
    (ran : form.read reading arguments = .ok after) : after.1.Keeps P := by
  induction arguments generalizing reading with
  | nil =>
    cases ran
    exact keeps
  | cons argument rest ih =>
    unfold Form.read at ran
    split at ran
    · cases ran
      exact keeps
    · split at ran
      · obtain ⟨placed, ended, ran⟩ := except_bind_eq_ok.mp ran
        cases ran
        exact keeps.placeAll ended
      · obtain ⟨next, ended, ran⟩ := except_bind_eq_ok.mp ran
        exact ih (form_keeps.readArgument keeps ended) ran

/-- What every entry of a form keeps holds of each draft that it makes. -/
theorem parse (form_keeps : form.Keeps P) {draft made : σ} (start : P draft)
    {arguments : List String} (ran : form.parse draft arguments = .ok made) : P made := by
  obtain ⟨⟨reading, branch⟩, ended, rest⟩ := except_bind_eq_ok.mp ran
  obtain ⟨closed, finished, last⟩ := except_bind_eq_ok.mp rest
  have begun : (form.start draft).Keeps P := ⟨start, trivial, form_keeps.places⟩
  have keeps := form_keeps.read begun ended
  cases last
  exact (keeps.close finished).draft

end Form.Keeps

theorem word?_lt {text : String} {n : Nat} (read : word? text = some n) : n < 0x100000000 := by
  unfold word? at read
  simp only at read
  split at read
  · cases read
  · split at read
    · cases read
    · cases read
      omega

/-- The axes that have been read fit their fields. -/
structure Draft.InRange (draft : Draft) : Prop where
  width : ∀ n ∈ draft.width, n < 0x100000000
  height : ∀ n ∈ draft.height, n < 0x100000000

theorem accepting_once {α : Type} {current : Draft → Option α} {parse? : String → Option α}
    {update : Draft → α → Draft}
    (kept : ∀ draft text value, parse? text = some value → draft.InRange →
      (update draft value).InRange) : Accepting Draft.InRange (once current parse? update) := by
  intro text draft made inRange ran
  unfold once at ran
  split at ran
  · cases ran
  · obtain ⟨value, parsed, rfl⟩ := Option.map_eq_some_iff.mp ran
    exact kept draft text value parsed inRange

theorem accepting_pathPlace : Accepting Draft.InRange pathPlace := by
  intro text draft made inRange ran
  obtain ⟨path, _, rfl⟩ := Option.map_eq_some_iff.mp ran
  exact ⟨inRange.width, inRange.height⟩

theorem keeping_raised {current : Draft → Bool} {update : Draft → Draft}
    (kept : ∀ draft, draft.InRange → (update draft).InRange) :
    Keeping Draft.InRange (raised current update) := by
  intro draft made inRange ran
  unfold raised at ran
  split at ran
  · cases ran
  · cases ran
    exact kept draft inRange

theorem keeps_scaleForm : scaleForm.Keeps Draft.InRange where
  flags := by
    intro flag member
    simp only [scaleForm, List.mem_cons, List.not_mem_nil, or_false] at member
    rcases member with rfl | rfl | rfl
    · exact keeping_raised fun draft inRange => ⟨inRange.width, inRange.height⟩
    · exact keeping_raised fun draft inRange => ⟨inRange.width, inRange.height⟩
    · exact keeping_raised fun draft inRange => ⟨inRange.width, inRange.height⟩
  options := by
    intro option member
    simp only [scaleForm, globalOptions, List.cons_append, List.nil_append, List.mem_cons,
      List.not_mem_nil, or_false] at member
    have other {α : Type} {current : Draft → Option α} {parse? : String → Option α}
        {update : Draft → α → Draft} (same : ∀ draft value,
          (update draft value).width = draft.width ∧ (update draft value).height = draft.height) :
        Accepting Draft.InRange (once current parse? update) :=
      accepting_once fun draft text value _ inRange =>
        ⟨(same draft value).1 ▸ inRange.width, (same draft value).2 ▸ inRange.height⟩
    rcases member with rfl | rfl | rfl | rfl | rfl | rfl | rfl | rfl
    · exact other fun _ _ => ⟨rfl, rfl⟩
    · exact other fun _ _ => ⟨rfl, rfl⟩
    · exact accepting_once fun draft text value read inRange =>
        ⟨fun n same => by cases same; exact word?_lt read, inRange.height⟩
    · exact accepting_once fun draft text value read inRange =>
        ⟨inRange.width, fun n same => by cases same; exact word?_lt read⟩
    · exact other fun _ _ => ⟨rfl, rfl⟩
    · exact other fun _ _ => ⟨rfl, rfl⟩
    · exact other fun _ _ => ⟨rfl, rfl⟩
    · exact other fun _ _ => ⟨rfl, rfl⟩
  places := by
    intro put member
    simp only [scaleForm, List.mem_cons, List.not_mem_nil, or_false, or_self] at member
    subst member
    exact accepting_pathPlace

namespace ScaleArguments

structure InRange (arguments : ScaleArguments) : Prop where
  width : ∀ n ∈ arguments.width, n < 0x100000000
  height : ∀ n ∈ arguments.height, n < 0x100000000

variable {arguments : ScaleArguments} {config : Config} {recipe : Recipe}

theorem inRange_axes (inRange : arguments.InRange) {mode : ScaleMode}
    (made : arguments.axes = .ok mode) : mode.InRange := by
  unfold axes at made
  cases wide : arguments.width with
  | some width =>
    have small := inRange.width width wide
    cases high : arguments.height with
    | some height =>
      have both := And.intro small (inRange.height height high)
      rw [wide, high] at made
      cases made
      split
      · exact both
      · exact both
    | none =>
      rw [wide, high] at made
      cases made
      exact small
  | none =>
    cases high : arguments.height with
    | some height =>
      rw [wide, high] at made
      cases made
      exact inRange.height height high
    | none =>
      cases given : arguments.percent with
      | some amount =>
        simp only [wide, high, given] at made
        split at made
        · cases made
          trivial
        · cases made
      | none =>
        simp only [wide, high, given] at made
        cases made
        trivial

theorem encodingQuality_lt {quality : Quality} (made : arguments.encodingQuality config = .ok quality) :
    quality.value < 0x100000000 := by
  have clamped (n : Nat) : (Quality.ofNat n).value < 0x100000000 := by
    simp only [Quality.ofNat]
    omega
  unfold encodingQuality at made
  split at made
  · split at made
    · cases made
      exact clamped _
    · cases made
  · cases made
    exact clamped _

theorem recipe_paths (made : arguments.recipe config = .ok recipe) :
    recipe.source = arguments.input ∧ recipe.output = arguments.output := by
  obtain ⟨_, _, made⟩ := except_bind_eq_ok.mp made
  obtain ⟨_, _, made⟩ := except_bind_eq_ok.mp made
  obtain ⟨_, _, made⟩ := except_bind_eq_ok.mp made
  cases made
  exact ⟨rfl, rfl⟩

/-- The numbers of the recipe of arguments are in range too. -/
theorem inRange_recipe (inRange : arguments.InRange) (made : arguments.recipe config = .ok recipe) :
    recipe.InRange := by
  obtain ⟨sharpen, _, made⟩ := except_bind_eq_ok.mp made
  obtain ⟨quality, encoded, made⟩ := except_bind_eq_ok.mp made
  obtain ⟨mode, chosen, made⟩ := except_bind_eq_ok.mp made
  obtain ⟨axes, given, chosen⟩ := except_bind_eq_ok.mp chosen
  have same : axes = mode := by
    split at chosen
    · cases chosen
    · cases chosen
      rfl
  cases made
  exact ⟨inRange_axes inRange (same ▸ given), encodingQuality_lt encoded⟩

end ScaleArguments

theorem scaleArguments?_inRange {draft : Draft} {arguments : ScaleArguments}
    (inRange : draft.InRange) (made : scaleArguments? draft = some arguments) :
    arguments.InRange := by
  unfold scaleArguments? at made
  split at made
  · split at made
    · cases made
    · split at made
      · cases made
      · cases made
        exact ⟨inRange.width, inRange.height⟩
  · cases made

/-- Only the entry for scaling makes arguments of a scaling. -/
theorem inRange_of_command {entry : Entry} (listed : entry ∈ entries) {words : List String}
    {draft : Draft} (drawn : entry.form.parse {} words = .ok draft) {arguments : ScaleArguments}
    (made : entry.command? draft = some (.scale arguments)) : arguments.InRange := by
  simp only [entries, List.mem_cons, List.not_mem_nil, or_false] at listed
  rcases listed with rfl | rfl | rfl | rfl
  · obtain ⟨found, scales, same⟩ := Option.map_eq_some_iff.mp made
    cases same
    have empty : ({} : Draft).InRange :=
      ⟨fun n same => (by cases same), fun n same => (by cases same)⟩
    exact scaleArguments?_inRange (keeps_scaleForm.parse empty drawn) scales
  · simp only [infoOf?] at made
    split at made <;> cases made
  · cases made
  · cases made

/-- The arguments of a scaling that are read from a command line are in range. -/
theorem parse_inRange {words : List String} {invocation : Invocation} {arguments : ScaleArguments}
    (read : parse words = .ok invocation) (scales : invocation.command = .scale arguments) :
    arguments.InRange := by
  obtain ⟨⟨front, branch⟩, _, rest⟩ := except_bind_eq_ok.mp read
  cases branch with
  | none => cases rest
  | some chosen =>
    obtain ⟨name, behind⟩ := chosen
    simp only at rest
    by_cases help : name = helpName
    · rw [if_pos help] at rest
      cases rest
    · rw [if_neg help] at rest
      cases found : entries.find? fun entry => entry.name = name with
      | none =>
        simp only [found] at rest
        cases rest
      | some entry =>
        simp only [found] at rest
        obtain ⟨draft, drawn, rest⟩ := except_bind_eq_ok.mp rest
        obtain ⟨closed, _, rest⟩ := except_bind_eq_ok.mp rest
        cases made : entry.command? draft with
        | none =>
          simp only [made] at rest
          cases rest
        | some command =>
          simp only [made] at rest
          cases rest
          have listed := List.mem_of_find?_eq_some found
          exact inRange_of_command listed drawn (made.trans (congrArg some scales))

end ImageDerivative.CommandLine
