import GpuPlacement.Proofs.Dictionary
import GpuPlacement.Proofs.Placing
/-!
When settings are rejected. Every setting is checked on its own: among valid settings the new value
of one setting is accepted or rejected, with the same error, as it is without the other ones.
-/
namespace GpuPlacement

/-- The error that a computation ends with. -/
def failure? {ε α : Type} : Except ε α → Option ε
  | .ok _ => none
  | .error error => some error

section

variable {ε α β : Type} {result : Except ε α}

theorem failure?_eq_some_iff {error : ε} :
    failure? result = some error ↔ result = .error error := by
  cases result <;> simp [failure?]

theorem failure?_eq_none_iff : failure? result = none ↔ ∃ value, result = .ok value := by
  cases result <;> simp [failure?]

theorem findSome?_congr {items : List α} {f g : α → Option β}
    (h : ∀ item ∈ items, f item = g item) : items.findSome? f = items.findSome? g := by
  induction items with
  | nil => rfl
  | cons head rest ih =>
      obtain ⟨first, later⟩ := List.forall_mem_cons.mp h
      rw [List.findSome?_cons, List.findSome?_cons, first, ih later]

theorem failure?_map (f : α → β) : failure? (result.map f) = failure? result := by
  cases result <;> rfl

theorem failure?_bind {next : α → Except ε β} {later : Option ε}
    (h : ∀ value, failure? (next value) = later) :
    failure? (result >>= next) = (failure? result).or later := by
  cases result with
  | ok value => exact h value
  | error error => rfl

end

theorem parseBool_renderBool (value : Bool) : parseBool (renderBool value) = some value := by
  cases value <;> rfl

/-- An entry's text depends on the entry's own setting only, and its default is always there. -/
structure EntryView.ReadsOwnKey (view : EntryView) : Prop where
  congr : ∀ {settings other : Settings}, settings.get? view.key = other.get? view.key →
    failure? (view.resolveText settings) = failure? (view.resolveText other)
  default : ∀ {settings : Settings}, settings.get? view.key = none →
    failure? (view.resolveText settings) = none

namespace Entry

variable {α : Type} [SettingValue α] (entry : Entry α)

theorem resolve_insert (settings : Settings) (key value : String) :
    entry.resolve (settings.insert key value) =
      if entry.key = key then entry.valueOf value else entry.resolve settings := by
  simp only [resolve, Dict.get?_insert]
  by_cases same : entry.key = key
  · rw [if_pos same, if_pos same]
  · rw [if_neg same, if_neg same]

theorem valueOf_eq_ok_iff {raw : String} {value : α} :
    entry.valueOf raw = .ok value ↔ SettingValue.parse raw = some value ∧
      ∀ validator ∈ entry.validator, validator.check value = true := by
  unfold valueOf
  cases parsed : SettingValue.parse (α := α) raw with
  | none => simp
  | some read =>
      cases checked : entry.validator with
      | none => simp
      | some validator =>
          by_cases passes : validator.check read = true
          · simp only [if_pos passes, Except.ok.injEq, Option.some.injEq, Option.mem_def,
              forall_eq']
            exact ⟨fun same => ⟨same, same ▸ passes⟩, fun h => h.1⟩
          · simp only [if_neg passes, Option.some.injEq, Option.mem_def, forall_eq']
            refine iff_of_false nofun ?_
            rintro ⟨rfl, passed⟩
            exact passes passed

theorem resolve_of_get? {settings : Settings} {raw : String}
    (given : settings.get? entry.key = some raw) : entry.resolve settings = entry.valueOf raw := by
  rw [resolve, given]

/-- A resolved entry was read from its raw text, checked or not. -/
theorem parse_of_resolve {settings : Settings} {raw : String} {value : α}
    (resolved : entry.resolve settings = .ok value) (given : settings.get? entry.key = some raw) :
    SettingValue.parse raw = some value := by
  rw [entry.resolve_of_get? given, entry.valueOf_eq_ok_iff] at resolved
  exact resolved.1

theorem resolve_of_absent {settings : Settings} (absent : settings.get? entry.key = none) :
    entry.resolve settings = .ok entry.default := by
  rw [resolve, absent]

theorem failure?_view (settings : Settings) :
    failure? (entry.view.resolveText settings) = failure? (entry.resolve settings) :=
  failure?_map _

theorem view_readsOwnKey : entry.view.ReadsOwnKey where
  congr := by
    intro settings other same
    have same : settings.get? entry.key = other.get? entry.key := same
    rw [failure?_view, failure?_view, resolve, resolve, same]
  default := by
    intro settings absent
    have absent : settings.get? entry.key = none := absent
    rw [failure?_view, resolve, absent]
    rfl

end Entry

theorem Catalog.all_readsOwnKey : ∀ view ∈ all, view.ReadsOwnKey := by
  simp only [all, List.forall_mem_cons]
  and_intros
  all_goals first | exact Entry.view_readsOwnKey _ | exact List.forall_mem_nil _

namespace Config

/-- What is wrong with one setting as a switch of a rule. -/
def flagFault? (key raw : String) : Option PlacementError :=
  if isRuleKey key = true ∧ parseBool raw = none then
    some (.settingMalformed key raw (SettingValue.typeName Bool))
  else none

/-- What is wrong with settings: the first fault of a switch, or else of an entry. -/
def fault? (settings : Settings) : Option PlacementError :=
  (settings.entries.findSome? fun entry => flagFault? entry.1 entry.2).or
    (Catalog.all.findSome? fun view => failure? (view.resolveText settings))

theorem failure?_readRuleFlags (entries : List (String × String)) :
    failure? (readRuleFlags entries) =
      entries.findSome? fun entry => flagFault? entry.1 entry.2 := by
  induction entries with
  | nil => rfl
  | cons head rest ih =>
      obtain ⟨key, raw⟩ := head
      rw [readRuleFlags, List.findSome?_cons, flagFault?]
      by_cases switch : isRuleKey key = true
      · cases read : parseBool raw with
        | none => simp [switch, failure?]
        | some flag => simp [switch, failure?_map, ih]
      · simp [switch, ih]

theorem failure?_bind_entry {α : Type} [SettingValue α] (entry : Entry α) (views : List EntryView)
    {settings : Settings} {next : α → Except PlacementError Config}
    (h : ∀ value, failure? (next value) =
      views.findSome? fun view => failure? (view.resolveText settings)) :
    failure? (entry.resolve settings >>= next) =
      (entry.view :: views).findSome? fun view => failure? (view.resolveText settings) := by
  rw [failure?_bind h, List.findSome?_cons, Entry.failure?_view]
  cases failure? (entry.resolve settings) <;> rfl

theorem failure?_resolve (settings : Settings) : failure? (resolve settings) = fault? settings := by
  unfold resolve fault? Catalog.all
  rw [← failure?_readRuleFlags]
  apply failure?_bind
  intro ruleFlags
  iterate 19
    apply failure?_bind_entry
    intro _
  rfl

theorem findSome?_insertEntry {α β : Type} {key : String} {value : α}
    {entries : List (String × α)} {f : String × α → Option β}
    (clean : entries.findSome? f = none) :
    (Dict.insertEntry key value entries).findSome? f = f (key, value) := by
  induction entries with
  | nil => simp [Dict.insertEntry]
  | cons head rest ih =>
      rw [List.findSome?_eq_none_iff, List.forall_mem_cons, ← List.findSome?_eq_none_iff] at clean
      obtain ⟨first, later⟩ := clean
      rw [Dict.insertEntry]
      split
      · simp only [List.findSome?_cons, first, later]
        cases f (key, value) <;> rfl
      · split
        · rw [List.findSome?_cons, first, ih later]
        · rw [List.findSome?_cons, later]
          cases f (key, value) <;> rfl

theorem flagFaults_insert {settings : Settings}
    (clean : settings.entries.findSome? (fun entry => flagFault? entry.1 entry.2) = none)
    (key value : String) :
    (settings.insert key value).entries.findSome? (fun entry => flagFault? entry.1 entry.2) =
      flagFault? key value :=
  findSome?_insertEntry clean

/-- A new value among valid settings is at fault exactly when it is at fault on its own. -/
theorem fault?_insert {settings : Settings} (valid : fault? settings = none)
    (key value : String) :
    fault? (settings.insert key value) = fault? (Dict.empty.insert key value) := by
  obtain ⟨flags, entries⟩ := Option.or_eq_none_iff.mp valid
  rw [fault?, fault?, flagFaults_insert flags, flagFaults_insert rfl]
  congr 1
  apply findSome?_congr
  intro view member
  have own := Catalog.all_readsOwnKey view member
  by_cases same : view.key = key
  · apply own.congr
    rw [Dict.get?_insert, Dict.get?_insert, if_pos same, if_pos same]
  · -- Every other entry reads what it read before, or its default: neither is at fault.
    have kept : (settings.insert key value).get? view.key = settings.get? view.key := by
      rw [Dict.get?_insert, if_neg same]
    have absent : (Dict.empty.insert key value).get? view.key = none := by
      rw [Dict.get?_insert, if_neg same, Dict.get?_empty]
    rw [own.congr kept, own.default absent]
    exact List.findSome?_eq_none_iff.mp entries view member

/-- What a snapshot of settings holds: every field is what its entry resolves to. -/
structure Holds (config : Config) (settings : Settings) : Prop where
  source : config.settings = settings
  ruleFlags : ∃ flags, readRuleFlags settings.entries = .ok flags ∧
    config.ruleFlags = .ofList flags
  sqlEnabled : Catalog.sqlEnabled.resolve settings = .ok config.sqlEnabled
  incompatibleOps : Catalog.incompatibleOps.resolve settings = .ok config.incompatibleOps
  explain : Catalog.explain.resolve settings = .ok config.explain
  ansiEnabled : Catalog.ansiEnabled.resolve settings = .ok config.ansiEnabled
  hasNaNs : Catalog.hasNaNs.resolve settings = .ok config.hasNaNs
  variableFloatAgg : Catalog.variableFloatAgg.resolve settings = .ok config.variableFloatAgg
  castFloatToString : Catalog.castFloatToString.resolve settings = .ok config.castFloatToString
  castStringToFloat : Catalog.castStringToFloat.resolve settings = .ok config.castStringToFloat
  sessionTimeZone : Catalog.sessionTimeZone.resolve settings = .ok config.sessionTimeZone
  joinEnabled : Catalog.joinEnabled.resolve settings = .ok config.joinEnabled
  parquetEnabled : Catalog.parquetEnabled.resolve settings = .ok config.parquetEnabled
  orcEnabled : Catalog.orcEnabled.resolve settings = .ok config.orcEnabled
  csvEnabled : Catalog.csvEnabled.resolve settings = .ok config.csvEnabled
  batchSizeBytes : Catalog.batchSizeBytes.resolve settings = .ok ⟨config.batchSizeBytes⟩
  concurrentGpuTasks : Catalog.concurrentGpuTasks.resolve settings = .ok config.concurrentGpuTasks
  allocFraction : Catalog.allocFraction.resolve settings = .ok config.allocFraction
  fixupExchangeOverhead :
    Catalog.fixupExchangeOverhead.resolve settings = .ok config.fixupExchangeOverhead
  testEnabled : Catalog.testEnabled.resolve settings = .ok config.testEnabled
  testAllowedNonGpu : Catalog.testAllowedNonGpu.resolve settings = .ok config.testAllowedNonGpu

theorem resolve_holds {settings : Settings} {config : Config} (h : resolve settings = .ok config) :
    config.Holds settings := by
  unfold resolve at h
  obtain ⟨flags, ruleFlags, h⟩ := bind_eq_ok_iff.mp h
  obtain ⟨_, sqlEnabled, h⟩ := bind_eq_ok_iff.mp h
  obtain ⟨_, incompatibleOps, h⟩ := bind_eq_ok_iff.mp h
  obtain ⟨_, explain, h⟩ := bind_eq_ok_iff.mp h
  obtain ⟨_, ansiEnabled, h⟩ := bind_eq_ok_iff.mp h
  obtain ⟨_, hasNaNs, h⟩ := bind_eq_ok_iff.mp h
  obtain ⟨_, variableFloatAgg, h⟩ := bind_eq_ok_iff.mp h
  obtain ⟨_, castFloatToString, h⟩ := bind_eq_ok_iff.mp h
  obtain ⟨_, castStringToFloat, h⟩ := bind_eq_ok_iff.mp h
  obtain ⟨_, sessionTimeZone, h⟩ := bind_eq_ok_iff.mp h
  obtain ⟨_, joinEnabled, h⟩ := bind_eq_ok_iff.mp h
  obtain ⟨_, parquetEnabled, h⟩ := bind_eq_ok_iff.mp h
  obtain ⟨_, orcEnabled, h⟩ := bind_eq_ok_iff.mp h
  obtain ⟨_, csvEnabled, h⟩ := bind_eq_ok_iff.mp h
  obtain ⟨⟨_⟩, batchSizeBytes, h⟩ := bind_eq_ok_iff.mp h
  obtain ⟨_, concurrentGpuTasks, h⟩ := bind_eq_ok_iff.mp h
  obtain ⟨_, allocFraction, h⟩ := bind_eq_ok_iff.mp h
  obtain ⟨_, fixupExchangeOverhead, h⟩ := bind_eq_ok_iff.mp h
  obtain ⟨_, testEnabled, h⟩ := bind_eq_ok_iff.mp h
  obtain ⟨_, testAllowedNonGpu, h⟩ := bind_eq_ok_iff.mp h
  cases h
  constructor
  all_goals first | rfl | assumption | exact ⟨flags, ruleFlags, rfl⟩

section

variable {entries : List (String × String)} {flags : List (String × Bool)}

theorem keys_ruleFlags (read : readRuleFlags entries = .ok flags) :
    (flags.map (·.1)).Sublist (entries.map (·.1)) := by
  induction entries generalizing flags with
  | nil =>
      cases read
      exact .slnil
  | cons head rest ih =>
      obtain ⟨name, raw⟩ := head
      rw [readRuleFlags] at read
      by_cases switch : isRuleKey name = true
      · rw [if_pos switch] at read
        cases parsed : parseBool raw with
        | none => simp [parsed] at read
        | some flag =>
            rw [parsed] at read
            obtain ⟨others, later, rfl⟩ := map_eq_ok_iff.mp read
            exact (ih later).cons_cons name
      · rw [if_neg switch] at read
        exact (ih read).cons name

theorem lookup_ruleFlags (read : readRuleFlags entries = .ok flags) (key : String) :
    flags.lookup key = if isRuleKey key then (entries.lookup key).bind parseBool else none := by
  induction entries generalizing flags with
  | nil =>
      cases read
      simp
  | cons head rest ih =>
      obtain ⟨name, raw⟩ := head
      rw [readRuleFlags] at read
      by_cases switch : isRuleKey name = true
      · rw [if_pos switch] at read
        cases parsed : parseBool raw with
        | none => simp [parsed] at read
        | some flag =>
            rw [parsed] at read
            obtain ⟨others, later, rfl⟩ := map_eq_ok_iff.mp read
            rw [List.lookup_cons, List.lookup_cons, ih later]
            by_cases same : key = name
            · simp [same, switch, parsed]
            · simp [beq_eq_false_iff_ne.mpr same]
      · rw [if_neg switch] at read
        rw [ih read, List.lookup_cons]
        by_cases same : key = name
        · simp [same, switch]
        · simp [beq_eq_false_iff_ne.mpr same]

end

theorem Holds.get?_ruleFlags {config : Config} {settings : Settings} (h : config.Holds settings)
    (key : String) : config.ruleFlags.get? key =
      if isRuleKey key then (settings.get? key).bind parseBool else none := by
  obtain ⟨flags, read, same⟩ := h.ruleFlags
  have distinct := (keys_ruleFlags read).nodup (Dict.nodup_keys settings.sorted)
  rw [same, Dict.get?_ofList distinct, lookup_ruleFlags read, Dict.get?]

end Config

end GpuPlacement
