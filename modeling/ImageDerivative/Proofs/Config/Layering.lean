import ImageDerivative.Proofs.Config.Settings
import ImageDerivative.Proofs.Toml.Documents

/-! A file over the stock defaults stands for the same configuration as the file on its own.
What is absent from the file comes from the stock values in the one case and is left alone in
the other; the two agree since the stock values put what is there already. -/
namespace ImageDerivative

namespace Setting

variable {α : Type} {settings : List (Setting α)} {base overlay : Dict TomlValue} {a : α}

/-- `old` puts nothing into `a` that `a` does not have, and makes no difference beneath
another value. -/
structure Idle (put? : α → TomlValue → Option α) (a : α) (old : TomlValue) : Prop where
  alone : put? a old = some a
  beneath : ∀ value, value.WellFormed → put? a (old.merge value) = put? a value

theorem Idle.of_not_table {put? : α → TomlValue → Option α} {old : TomlValue}
    (alone : put? a old = some a) (plain : ¬ old.IsTable) : Idle put? a old where
  alone := alone
  beneath value _ := by rw [TomlValue.merge_of_not_table plain]

/-- Every field of `base` is idle in the setting of its name. -/
structure Bottom (settings : List (Setting α)) (a : α) (base : Dict TomlValue) : Prop where
  distinct : base.Distinct
  idle : ∀ field ∈ base, ∃ setting ∈ settings, setting.name = field.1 ∧ Idle setting.put? a field.2

namespace Bottom

/-- A field for each of the settings, in their order. -/
theorem of_forall₂ (independent : Independent settings)
    (each : List.Forall₂ (fun setting field => setting.name = field.1 ∧ Idle setting.put? a field.2)
      settings base) : Bottom settings a base where
  distinct := by
    have keys : settings.map name = base.map Prod.fst := by
      rw [← List.forall₂_eq_eq_eq, List.forall₂_map_left_iff, List.forall₂_map_right_iff]
      exact each.imp fun _ _ both => both.1
    rw [Dict.Distinct, ← keys]
    exact independent.names
  idle := by
    clear independent
    induction each with
    | nil => exact List.forall_mem_nil _
    | cons first rest ih =>
      refine List.forall_mem_cons.mpr ⟨⟨_, List.mem_cons_self, first⟩, fun field member => ?_⟩
      obtain ⟨setting, among, idle⟩ := ih field member
      exact ⟨setting, List.mem_cons_of_mem _ among, idle⟩

theorem known (bottom : Bottom settings a base) : base.map Prod.fst ⊆ settings.map name := by
  intro key member
  obtain ⟨field, below, rfl⟩ := List.mem_map.mp member
  obtain ⟨setting, among, named, -⟩ := bottom.idle field below
  exact List.mem_map.mpr ⟨setting, among, named⟩

theorem idle_of_get? (bottom : Bottom settings a base) (independent : Independent settings)
    {setting : Setting α} (among : setting ∈ settings) {old : TomlValue}
    (found : base.get? setting.name = some old) : Idle setting.put? a old := by
  obtain ⟨other, among', named, idle⟩ := bottom.idle _ (Dict.mem_of_get? found)
  have same := List.inj_on_of_nodup_map independent.names among' among named
  rwa [same] at idle

/-- A setting takes from the merged fields what it takes from the upper ones. -/
theorem take?_mergeFields (bottom : Bottom settings a base) (independent : Independent settings)
    (wellFormed : (TomlValue.table overlay).WellFormed) {setting : Setting α}
    (among : setting ∈ settings) :
    setting.take? ((TomlValue.mergeFields base overlay).get? setting.name) a =
      setting.take? (overlay.get? setting.name) a := by
  rw [TomlValue.get?_mergeFields wellFormed.distinct]
  cases below : base.get? setting.name with
  | none => cases overlay.get? setting.name <;> rfl
  | some old =>
    have idle := bottom.idle_of_get? independent among below
    cases above : overlay.get? setting.name with
    | none => exact idle.alone
    | some value => exact idle.beneath value (wellFormed.of_get? above)

theorem ofFields_mergeFields (bottom : Bottom settings a base) (independent : Independent settings)
    (wellFormed : (TomlValue.table overlay).WellFormed) :
    ofFields settings (TomlValue.mergeFields base overlay) a = ofFields settings overlay a := by
  have keys := TomlValue.mem_keys_mergeFields wellFormed.distinct base
  by_cases known : overlay.map Prod.fst ⊆ settings.map name
  · have merged : (TomlValue.mergeFields base overlay).map Prod.fst ⊆ settings.map name := by
      intro key member
      exact ((keys key).mp member).elim (bottom.known ·) (known ·)
    have distinct := TomlValue.distinct_mergeFields bottom.distinct overlay
    rw [ofFields_eq_fill independent distinct merged,
      ofFields_eq_fill independent wellFormed.distinct known]
    exact fill_congr independent.apart fun setting among =>
      bottom.take?_mergeFields independent wellFormed among
  · -- A key that is unknown in the overlay is one in the merged fields too.
    have merged : ¬ (TomlValue.mergeFields base overlay).map Prod.fst ⊆ settings.map name :=
      fun all => known fun key above => all ((keys key).mpr (.inr above))
    rw [ofFields_eq_none merged, ofFields_eq_none known]

/-- Idle fields make an idle group. -/
theorem idle_decode (bottom : Bottom settings a base) (independent : Independent settings) :
    Idle (fun a value => decode settings value a) a (.table base) where
  alone := by
    have merged := bottom.ofFields_mergeFields independent .empty
    rwa [TomlValue.mergeFields] at merged
  beneath value wellFormed := by
    cases value with
    | table fields =>
      rw [TomlValue.merge]
      exact bottom.ofFields_mergeFields independent wellFormed
    | _ => simp only [TomlValue.merge]

end Bottom

end Setting

namespace Config

open Setting (Apart Bottom Idle Independent)

def sections : List (String × List (Setting Config)) := [
  ("processing", processingSettings), ("scale", scaleSettings), ("cache", cacheSettings),
  ("log", logSettings)]

theorem groups_eq :
    groups = sections.map fun part => ⟨part.1, fun c v => Setting.decode part.2 v c⟩ := rfl

/-- No two settings write the same field. -/
theorem settings_apart : (sections.flatMap Prod.snd).Pairwise Apart := by
  simp only [sections, processingSettings, scaleSettings, cacheSettings, logSettings,
    List.flatMap_cons, List.flatMap_nil, List.cons_append, List.nil_append, List.pairwise_cons,
    List.forall_mem_cons, List.not_mem_nil, false_imp_iff, implies_true, List.Pairwise.nil, and_true]
  repeat' apply And.intro
  all_goals exact .of_writes fun _ _ _ => rfl

theorem independent_sections : Independent processingSettings ∧ Independent scaleSettings ∧
    Independent cacheSettings ∧ Independent logSettings := by
  have names : ∀ part ∈ sections, (part.2.map Setting.name).Nodup := by decide
  have apart := (List.pairwise_flatMap.mp settings_apart).1
  have each : ∀ part ∈ sections, Independent part.2 :=
    fun part member => ⟨names part member, apart part member⟩
  simpa only [sections, List.forall_mem_cons, List.not_mem_nil, false_imp_iff, implies_true,
    and_true] using each

theorem independent_groups : Independent groups where
  names := by decide
  apart := by
    rw [groups_eq, List.pairwise_map]
    exact (List.pairwise_flatMap.mp settings_apart).2.imp fun apart v w =>
      Setting.interchange_groups apart v w

/-- A value from which a setting reads what is there already. -/
theorem idle_of_reads {β : Type} {read : TomlValue → Option β} {write : Config → β → Config}
    {config : Config} {value : TomlValue} {b : β} (reads : read value = some b)
    (same : write config b = config) (plain : ¬ value.IsTable) :
    Idle (fun c v => do return write c (← read v)) config value := by
  refine .of_not_table ?_ plain
  simp only [reads, bind, pure, Option.bind_some, same]

theorem natural?_natCast {n limit : Nat} (small : n < limit) :
    natural? limit (.integer n) = some n := by
  rw [natural?, if_pos ⟨Int.natCast_nonneg n, Int.ofNat_lt.mpr small⟩, Int.toNat_natCast]

/-- A configuration loses nothing when it is laid out as a value. -/
structure Lossless (config : Config) : Prop where
  maxThreads : ∀ n, config.maxThreads = some n → n < 0x10000000000000000
  sharpen : Precision.narrow (Precision.widen config.sharpen) = config.sharpen
  quality : config.quality < 0x100000000

/-- The value of a configuration is idle in it. -/
theorem idle_toToml {config : Config} (lossless : config.Lossless) :
    Idle (fun c v => Setting.decode groups v c) config config.toToml := by
  obtain ⟨processingApart, scaleApart, cacheApart, logApart⟩ := independent_sections
  have scale : Bottom scaleSettings config [
      ("downscale_filter", .string config.policy.downscale.name),
      ("upscale_filter", .string config.policy.upscale.name),
      ("linear_output", .boolean config.linear),
      ("sharpen", .float (Precision.widen config.sharpen)),
      ("quality", .integer config.quality)] := by
    apply Bottom.of_forall₂ scaleApart
    refine .cons ⟨rfl, ?_⟩ (.cons ⟨rfl, ?_⟩ (.cons ⟨rfl, ?_⟩ (.cons ⟨rfl, ?_⟩ (.cons ⟨rfl, ?_⟩ .nil))))
    · exact idle_of_reads (Kernel.ofName?_name _) rfl not_false
    · exact idle_of_reads (Kernel.ofName?_name _) rfl not_false
    · exact idle_of_reads rfl rfl not_false
    · exact idle_of_reads (congrArg some lossless.sharpen) rfl not_false
    · exact idle_of_reads (natural?_natCast lossless.quality) rfl not_false
  have cache : Bottom cacheSettings config [
      ("enabled", .boolean config.cacheEnabled), ("directory", .string config.cacheDirectory)] := by
    apply Bottom.of_forall₂ cacheApart
    refine .cons ⟨rfl, ?_⟩ (.cons ⟨rfl, ?_⟩ .nil)
    · exact idle_of_reads rfl rfl not_false
    · exact idle_of_reads rfl rfl not_false
  have log : Bottom logSettings config [("level", .string config.logLevel)] := by
    apply Bottom.of_forall₂ logApart
    exact .cons ⟨rfl, idle_of_reads rfl rfl not_false⟩ .nil
  refine Bottom.idle_decode (.of_forall₂ independent_groups ?_) independent_groups
  refine .cons ⟨rfl, ?_⟩ (.cons ⟨rfl, ?_⟩ (.cons ⟨rfl, ?_⟩ (.cons ⟨rfl, ?_⟩ .nil)))
  · -- The one setting that a configuration may lack.
    apply Bottom.idle_decode _ processingApart
    cases threads : config.maxThreads with
    | none => exact ⟨List.nodup_nil, List.forall_mem_nil _⟩
    | some n =>
      have reads := natural?_natCast (lossless.maxThreads n threads)
      apply Bottom.of_forall₂ processingApart
      exact .cons ⟨rfl, idle_of_reads reads (by rw [← threads]) not_false⟩ .nil
  · exact scale.idle_decode scaleApart
  · exact cache.idle_decode cacheApart
  · exact log.idle_decode logApart

theorem lossless_stock : Lossless {} where
  maxThreads n absent := by cases absent
  sharpen := by decide +kernel
  quality := by decide

theorem ofToml_merge {overlay : TomlValue} (wellFormed : overlay.WellFormed) :
    ofToml (stockDefaults.merge overlay) = ofToml overlay := by
  rw [ofToml, ofToml, stockDefaults, (idle_toToml lossless_stock).beneath overlay wellFormed]

theorem wellFormed_of_readFile {tree : FileTree} {path : Path} {value : TomlValue}
    (read : readFile tree path = .ok value) : value.WellFormed := by
  unfold readFile at read
  split at read
  · contradiction
  · unfold parseFile at read
    split at read
    · contradiction
    · split at read
      · rename_i parsed
        cases read
        exact Toml.wellFormed_of_parse? parsed
      · contradiction

theorem resolve_eq {overlay : TomlValue} (wellFormed : overlay.WellFormed) :
    resolve stockDefaults (some overlay) = (ofToml overlay >>= validate) := by
  rw [← ofToml_merge wellFormed]
  rfl

/-- A file that is named settles the configuration on its own. -/
theorem load_some (tree : FileTree) (path : Path) :
    load tree (some path) = readFile tree path >>= ofToml >>= validate := by
  cases read : readFile tree path with
  | error error => simp [load, read, bind, Except.bind]
  | ok value =>
    have same := resolve_eq (wellFormed_of_readFile read)
    simp [load, read, same, bind, Except.bind]

theorem outcomes_ofToml (value : TomlValue) :
    ofToml value >>= validate = .error .toml ∨
      (∃ invalid, ofToml value >>= validate = .error (.validation invalid)) ∨
      ∃ config, ofToml value >>= validate = .ok config := by
  rw [ofToml]
  cases Setting.decode groups value {} with
  | none => exact .inl rfl
  | some config =>
    cases found : config.firstInvalid? with
    | some invalid => exact .inr (.inl ⟨invalid, by simp [validate, found, bind, Except.bind]⟩)
    | none => exact .inr (.inr ⟨config, by simp [validate, found, bind, Except.bind]⟩)

/-- What lies over the stock defaults gives what it gives on its own, and that is no TOML for
the settings, a setting out of range, or a configuration. What a file holds always gives it. -/
theorem resolve_stockDefaults :
    (∀ overlay : TomlValue, overlay.WellFormed →
      resolve stockDefaults (some overlay) = (ofToml overlay >>= validate) ∧
        (ofToml overlay >>= validate = .error .toml ∨
          (∃ invalid, ofToml overlay >>= validate = .error (.validation invalid)) ∨
          ∃ config, ofToml overlay >>= validate = .ok config)) ∧
    ∀ tree path, load tree (some path) = readFile tree path >>= ofToml >>= validate :=
  ⟨fun overlay wellFormed => ⟨resolve_eq wellFormed, outcomes_ofToml overlay⟩, load_some⟩

/-- Few settings, of which one is out of range, and a group that is written as an array. -/
def fewSettings : TomlValue := .table [
  ("scale", .table [("quality", .integer 101)]), ("cache", .array [.boolean false])]

theorem resolve_fewSettings : fewSettings.WellFormed ∧
    resolve stockDefaults (some fewSettings) = (ofToml fewSettings >>= validate) ∧
    ofToml fewSettings >>= validate = .error (.validation .quality) := by
  have scale : (TomlValue.table [("quality", .integer 101)]).WellFormed :=
    .table (List.nodup_singleton _) (List.forall_mem_singleton.mpr (.integer 101))
  have cache : (TomlValue.array [.boolean false]).WellFormed :=
    .array (List.forall_mem_singleton.mpr (.boolean false))
  have wellFormed : fewSettings.WellFormed := by
    refine .table (by simp [Dict.Distinct]) (List.forall_mem_cons.mpr ⟨scale, ?_⟩)
    exact List.forall_mem_singleton.mpr cache
  exact ⟨wellFormed, (resolve_stockDefaults.1 fewSettings wellFormed).1, rfl⟩

end Config

end ImageDerivative
