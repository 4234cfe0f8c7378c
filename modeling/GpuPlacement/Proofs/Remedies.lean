import GpuPlacement.Proofs.Permissive
import GpuPlacement.Proofs.RuleSwitches
import GpuPlacement.Proofs.Session
/-!
Settings that allow more. Whichever configuration is valid, it stays valid with one of them on top,
and it allows whatever it allowed before.
-/
namespace GpuPlacement

theorem Catalog.all_not_ruleKeys : ∀ view ∈ all, isRuleKey view.key = false := by
  decide +kernel

/-- The switches that allow what is off without them. -/
def Catalog.permits : List (Entry Bool) :=
  [castFloatToString, castStringToFloat, variableFloatAgg, joinEnabled, parquetEnabled, orcEnabled,
    csvEnabled]

/-- The settings that allow more: a rule or a switch is turned on, or data is free of NaN. -/
inductive Loosens : (key value : String) → Prop
  | rule {key : String} : isRuleKey key = true → Loosens key "true"
  | permit {entry : Entry Bool} : entry ∈ Catalog.permits → Loosens entry.key "true"
  | nans : Loosens Catalog.hasNaNs.key "false"

namespace Loosens

open Catalog

theorem failure?_permit : ∀ entry ∈ permits,
    failure? (Config.resolve (Dict.empty.insert entry.key "true")) = none := by
  decide +kernel

theorem fault?_rule {key : String} (switch : isRuleKey key = true) :
    Config.fault? (Dict.empty.insert key "true") = none := by
  rw [Config.fault?, Option.or_eq_none_iff]
  constructor
  · rw [Config.flagFaults_insert rfl]
    exact if_neg fun fault => absurd fault.2 (by decide)
  · rw [List.findSome?_eq_none_iff]
    intro view member
    apply (all_readsOwnKey view member).default
    rw [Dict.get?_insert, if_neg, Dict.get?_empty]
    rintro rfl
    exact Bool.false_ne_true ((all_not_ruleKeys view member).symm.trans switch)

/-- Nothing is wrong with such a setting on its own. -/
theorem failure?_alone {key value : String} (h : Loosens key value) :
    failure? (Config.resolve (Dict.empty.insert key value)) = none := by
  cases h with
  | rule switch => rw [Config.failure?_resolve, fault?_rule switch]
  | permit member => exact failure?_permit _ member
  | nans => rfl

section

variable {settings : Settings} {config heeded : Config} {key value : String}

theorem value_of_ruleKey (h : Loosens key value) (switch : isRuleKey key = true) :
    value = "true" := by
  cases h with
  | rule => rfl
  | permit => rfl
  | nans => exact absurd switch (by decide)

theorem value_of_ne_nans (h : Loosens key value) (differ : key ≠ hasNaNs.key) :
    value = "true" := by
  cases h with
  | rule => rfl
  | permit => rfl
  | nans => exact absurd rfl differ

theorem value_of_eq_nans (h : Loosens key value) (same : hasNaNs.key = key) :
    value = "false" := by
  cases h with
  | rule switch => exact absurd (same ▸ switch) (by decide)
  | permit member =>
      have others : hasNaNs.key ∉ permits.map Entry.key := by decide
      exact absurd (same ▸ List.mem_map_of_mem member) others
  | nans => rfl

/-- Entries that no remedy asks for keep their values. -/
theorem eq_of_unasked {α : Type} [SettingValue α] {entry : Entry α} (h : Loosens key value)
    (plain : isRuleKey entry.key = false)
    (unasked : entry.key ∉ hasNaNs.key :: permits.map Entry.key) {before after : α}
    (first : entry.resolve settings = .ok before)
    (second : entry.resolve (settings.insert key value) = .ok after) : after = before := by
  have differ : entry.key ≠ key := by
    intro same
    cases h with
    | rule switch => exact Bool.false_ne_true (plain.symm.trans (same ▸ switch))
    | permit member => exact unasked (.tail _ (same ▸ List.mem_map_of_mem member))
    | nans => exact unasked (same ▸ .head _)
  rw [Entry.resolve_insert, if_neg differ, first] at second
  exact (Except.ok.inj second).symm

/-- A switch that is on stays on. -/
theorem on_of_on {entry : Entry Bool} (h : Loosens key value) (differ : entry.key ≠ hasNaNs.key)
    {before after : Bool} (first : entry.resolve settings = .ok before)
    (second : entry.resolve (settings.insert key value) = .ok after) (on : before = true) :
    after = true := by
  by_cases same : entry.key = key
  · have given : (settings.insert key value).get? entry.key = some "true" := by
      rw [Dict.get?_insert, if_pos same, h.value_of_ne_nans (same ▸ differ)]
    have parsed : parseBool (renderBool true) = some after := entry.parse_of_resolve second given
    rw [parseBool_renderBool] at parsed
    exact (Option.some.inj parsed).symm
  · rw [Entry.resolve_insert, if_neg same, first] at second
    exact (Except.ok.inj second) ▸ on

theorem nans_of_nans (h : Loosens key value) {before after : Bool}
    (first : hasNaNs.resolve settings = .ok before)
    (second : hasNaNs.resolve (settings.insert key value) = .ok after) (nans : after = true) :
    before = true := by
  by_cases same : hasNaNs.key = key
  · have given : (settings.insert key value).get? hasNaNs.key = some "false" := by
      rw [Dict.get?_insert, if_pos same, h.value_of_eq_nans same]
    have parsed : parseBool (renderBool false) = some after :=
      hasNaNs.parse_of_resolve second given
    rw [parseBool_renderBool] at parsed
    exact absurd ((Option.some.inj parsed).trans nans) Bool.false_ne_true
  · rw [Entry.resolve_insert, if_neg same, first] at second
    exact (Except.ok.inj second).trans nans

theorem enabled_of_enabled (h : Loosens key value) (before : config.Holds settings)
    (after : heeded.Holds (settings.insert key value)) (spec : RuleSpec)
    (on : spec.enabled config = true) : spec.enabled heeded = true := by
  by_cases same : spec.key = key
  · have given : (settings.insert key value).get? spec.key = some "true" := by
      rw [Dict.get?_insert, if_pos same, h.value_of_ruleKey (same ▸ spec.isRuleKey_key)]
    exact after.enabled_of_own given (parseBool_renderBool true)
  · have shared : heeded.incompatibleOps = config.incompatibleOps :=
      h.eq_of_unasked (by decide) (by decide) before.incompatibleOps after.incompatibleOps
    have kept : spec.enabled heeded = spec.enabled config := by
      rw [RuleSpec.enabled, RuleSpec.enabled, Config.ruleEnabled, Config.ruleEnabled,
        after.get?_ruleFlags_key, before.get?_ruleFlags_key, Dict.get?_insert, if_neg same, shared]
    exact kept.trans on

/-- Whoever follows a remedy loses nothing that was allowed. -/
theorem relaxes (h : Loosens key value) (before : config.Holds settings)
    (after : heeded.Holds (settings.insert key value)) : heeded.Relaxes config where
  exprRules := fun rule _ => h.enabled_of_enabled before after rule.spec
  operatorRules := fun rule _ => h.enabled_of_enabled before after rule.spec
  variableFloatAgg := h.on_of_on (by decide) before.variableFloatAgg after.variableFloatAgg
  castFloatToString := h.on_of_on (by decide) before.castFloatToString after.castFloatToString
  castStringToFloat := h.on_of_on (by decide) before.castStringToFloat after.castStringToFloat
  join := h.on_of_on (by decide) before.joinEnabled after.joinEnabled
  parquet := h.on_of_on (by decide) before.parquetEnabled after.parquetEnabled
  orc := h.on_of_on (by decide) before.orcEnabled after.orcEnabled
  csv := h.on_of_on (by decide) before.csvEnabled after.csvEnabled
  utc := by
    have zone := h.eq_of_unasked (by decide) (by decide) before.sessionTimeZone
      after.sessionTimeZone
    rw [Config.isUtc, Config.isUtc, zone]
    exact id
  ansi := by
    rw [h.eq_of_unasked (by decide) (by decide) before.ansiEnabled after.ansiEnabled]
    exact id
  nans := h.nans_of_nans before.hasNaNs after.hasNaNs
  fixup := by
    rw [h.eq_of_unasked (by decide) (by decide) before.fixupExchangeOverhead
      after.fixupExchangeOverhead]
    exact id

/-- A remedy can be followed from every valid configuration on. -/
theorem exists_heeded (h : Loosens key value) (valid : config.Valid) :
    ∃ heeded, config.withSetting key value = .ok heeded :=
  (Config.exists_withSetting_iff valid).mpr (failure?_eq_none_iff.mp h.failure?_alone)

end

end Loosens

end GpuPlacement
