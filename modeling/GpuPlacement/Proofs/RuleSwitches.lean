import GpuPlacement.Proofs.Resolution
/-!
The switches of rules. Whatever class a rule replaces, its key is among those that are read as
switches: a setting of it is obeyed, or else there is no snapshot. Without one the note on the
rule decides, and for incompatible rules the setting that they share.
-/
namespace GpuPlacement

/-- The key of a rule is a key of a switch, whatever stands in its class name. -/
theorem RuleSpec.isRuleKey_key (spec : RuleSpec) : isRuleKey spec.key = true := by
  have known : s!"accel.sql.{spec.kind.keyPart}." ∈ ruleKeyStarts := by
    cases spec.kind <;> decide
  rw [isRuleKey, List.any_eq_true]
  refine ⟨_, known, ?_⟩
  rw [List.isPrefixOf_iff_prefix]
  exact ⟨spec.short.toList, (String.toList_append ..).symm⟩

/-- What raw settings make of the switch of a rule, with one case for each place that has a say. -/
inductive RuleSpec.SwitchedTo (spec : RuleSpec) (settings : Settings) : Bool → Prop
  | own {raw : String} {flag : Bool} : settings.get? spec.key = some raw →
      parseBool raw = some flag → SwitchedTo spec settings flag
  | shared {raw : String} {flag : Bool} : settings.get? spec.key = none →
      spec.incompatibility.isSome = true →
      settings.get? "accel.sql.incompatibleOps.enabled" = some raw →
      parseBool raw = some flag → SwitchedTo spec settings flag
  | sharedDefault : settings.get? spec.key = none → spec.incompatibility.isSome = true →
      settings.get? "accel.sql.incompatibleOps.enabled" = none → SwitchedTo spec settings false
  | note : settings.get? spec.key = none → spec.incompatibility = none →
      SwitchedTo spec settings spec.offByDefault.isNone

namespace Config.Holds

variable {spec : RuleSpec} {settings : Settings} {config : Config}

/-- No snapshot is made of a switch that is no truth value. -/
theorem exists_flag (holds : config.Holds settings) {key raw : String}
    (switch : isRuleKey key = true) (given : settings.get? key = some raw) :
    ∃ flag, parseBool raw = some flag := by
  obtain ⟨flags, read, -⟩ := holds.ruleFlags
  have clean := failure?_readRuleFlags settings.entries
  rw [read] at clean
  have faultless := List.findSome?_eq_none_iff.mp clean.symm _ (Dict.mem_entries_iff.mpr given)
  cases parsed : parseBool raw with
  | some flag => exact ⟨flag, rfl⟩
  | none =>
      rw [flagFault?, if_pos ⟨switch, parsed⟩] at faultless
      cases faultless

theorem get?_ruleFlags_key (holds : config.Holds settings) (spec : RuleSpec) :
    config.ruleFlags.get? spec.key = (settings.get? spec.key).bind parseBool := by
  rw [holds.get?_ruleFlags, if_pos spec.isRuleKey_key]

theorem enabled_of_own (holds : config.Holds settings) {raw : String} {flag : Bool}
    (given : settings.get? spec.key = some raw) (read : parseBool raw = some flag) :
    spec.enabled config = flag := by
  rw [RuleSpec.enabled, ruleEnabled, holds.get?_ruleFlags_key, given, Option.bind_some, read]

theorem enabled_of_incompatible (holds : config.Holds settings)
    (absent : settings.get? spec.key = none) (incompatible : spec.incompatibility.isSome = true) :
    spec.enabled config = config.incompatibleOps := by
  rw [RuleSpec.enabled, ruleEnabled, holds.get?_ruleFlags_key, absent, Option.bind_none,
    if_pos incompatible]

theorem enabled_of_compatible (holds : config.Holds settings)
    (absent : settings.get? spec.key = none) (compatible : spec.incompatibility = none) :
    spec.enabled config = spec.offByDefault.isNone := by
  rw [RuleSpec.enabled, ruleEnabled, holds.get?_ruleFlags_key, absent, Option.bind_none, compatible,
    Option.isSome_none, if_neg Bool.false_ne_true, Option.not_isSome]

theorem parse_incompatibleOps (holds : config.Holds settings) {raw : String}
    (given : settings.get? "accel.sql.incompatibleOps.enabled" = some raw) :
    parseBool raw = some config.incompatibleOps :=
  Catalog.incompatibleOps.parse_of_resolve holds.incompatibleOps given

theorem incompatibleOps_default (holds : config.Holds settings)
    (absent : settings.get? "accel.sql.incompatibleOps.enabled" = none) :
    config.incompatibleOps = false := by
  have resolved := holds.incompatibleOps
  rw [Entry.resolve_of_absent _ absent] at resolved
  exact (Except.ok.inj resolved).symm

theorem enabled_of_switchedTo (holds : config.Holds settings) {flag : Bool}
    (switched : spec.SwitchedTo settings flag) : spec.enabled config = flag := by
  cases switched with
  | own given read => exact holds.enabled_of_own given read
  | shared absent incompatible given read =>
      rw [holds.enabled_of_incompatible absent incompatible]
      exact Option.some.inj ((holds.parse_incompatibleOps given).symm.trans read)
  | sharedDefault absent incompatible absent' =>
      rw [holds.enabled_of_incompatible absent incompatible, holds.incompatibleOps_default absent']
  | note absent compatible => exact holds.enabled_of_compatible absent compatible

theorem switchedTo_enabled (holds : config.Holds settings) :
    spec.SwitchedTo settings (spec.enabled config) := by
  cases own : settings.get? spec.key with
  | some raw =>
      obtain ⟨flag, read⟩ := holds.exists_flag spec.isRuleKey_key own
      rw [holds.enabled_of_own own read]
      exact .own own read
  | none =>
      cases note : spec.incompatibility with
      | none =>
          rw [holds.enabled_of_compatible own note]
          exact .note own note
      | some text =>
          have incompatible : spec.incompatibility.isSome = true := note ▸ rfl
          rw [holds.enabled_of_incompatible own incompatible]
          cases shared : settings.get? "accel.sql.incompatibleOps.enabled" with
          | some raw => exact .shared own incompatible shared (holds.parse_incompatibleOps shared)
          | none =>
              rw [holds.incompatibleOps_default shared]
              exact .sharedDefault own incompatible shared

end Config.Holds

/-- A switch that is no truth value is reported, be it the one that was looked for or another. -/
theorem Config.resolve_of_malformed_switch {settings : Settings} {key raw : String}
    (switch : isRuleKey key = true) (given : settings.get? key = some raw)
    (malformed : parseBool raw = none) :
    ∃ other text, isRuleKey other = true ∧ settings.get? other = some text ∧
      parseBool text = none ∧
      resolve settings = .error (.settingMalformed other text "boolean") := by
  have reported : (settings.entries.findSome? fun entry => flagFault? entry.1 entry.2).isSome := by
    rw [List.findSome?_isSome_iff]
    refine ⟨(key, raw), Dict.mem_entries_iff.mpr given, ?_⟩
    rw [flagFault?, if_pos ⟨switch, malformed⟩]
    rfl
  obtain ⟨error, found⟩ := Option.isSome_iff_exists.mp reported
  have failed : resolve settings = .error error := by
    rw [← failure?_eq_some_iff, failure?_resolve, fault?, found, Option.some_or]
  obtain ⟨⟨other, text⟩, member, fault⟩ := List.exists_of_findSome?_eq_some found
  obtain ⟨⟨switch, malformed⟩, same⟩ := Option.ite_none_right_eq_some.mp fault
  obtain rfl := Option.some.inj same
  exact ⟨other, text, switch, Dict.mem_entries_iff.mp member, malformed, failed⟩

/-- Whenever settings resolve, a rule is switched as they say: by the setting of its own key, or
else, for an incompatible rule, by the setting that such rules share or its default, and otherwise
by the rule's note. Settings where the rule's own key is no truth value do not resolve. -/
theorem enabled_iff_switchedTo (spec : RuleSpec) (settings : Settings) :
    (∀ config, Config.resolve settings = .ok config →
      ∀ flag, spec.enabled config = flag ↔ spec.SwitchedTo settings flag) ∧
    ∀ raw, settings.get? spec.key = some raw → parseBool raw = none →
      ∃ other text, isRuleKey other = true ∧ settings.get? other = some text ∧
        parseBool text = none ∧
        Config.resolve settings = .error (.settingMalformed other text "boolean") := by
  constructor
  · intro config resolved flag
    have holds := Config.resolve_holds resolved
    constructor
    · rintro rfl
      exact holds.switchedTo_enabled
    · exact holds.enabled_of_switchedTo
  · intro raw given malformed
    exact Config.resolve_of_malformed_switch spec.isRuleKey_key given malformed

end GpuPlacement
