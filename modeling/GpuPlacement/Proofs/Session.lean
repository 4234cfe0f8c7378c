import GpuPlacement.Proofs.Resolution
/-!
Sessions of configuration changes. A session ends in the snapshot of its start with the accepted
changes on top; which changes are accepted does not depend on the snapshot that they meet, and
changes of different settings may change places.
-/
namespace GpuPlacement.Config

/-- The snapshot after a change of one setting; a rejected value leaves it as it was. -/
def step (config : Config) (change : String × String) : Config :=
  match config.withSetting change.1 change.2 with
  | .ok updated => updated
  | .error _ => config

/-- The snapshot after changes one after the other. -/
def session (config : Config) (changes : List (String × String)) : Config :=
  changes.foldl step config

/-- The changes of a session that succeed, in order. -/
def accepted (config : Config) : List (String × String) → List (String × String)
  | [] => []
  | change :: rest =>
    match config.withSetting change.1 change.2 with
    | .ok updated => change :: updated.accepted rest
    | .error _ => config.accepted rest

/-- A snapshot that its own settings resolve to. -/
def Valid (config : Config) : Prop :=
  resolve config.settings = .ok config

variable {config : Config}

theorem valid_of_resolve {settings : Settings} (h : resolve settings = .ok config) :
    config.Valid := by
  rw [Valid, (resolve_holds h).source, h]

theorem settings_of_withSetting {key value : String} {updated : Config}
    (h : config.withSetting key value = .ok updated) :
    updated.settings = config.settings.insert key value :=
  (resolve_holds h).source

/-- A change of a valid snapshot fails as it fails without any other setting. -/
theorem failure?_withSetting (valid : config.Valid) (key value : String) :
    failure? (config.withSetting key value) =
      failure? (resolve (Dict.empty.insert key value)) := by
  have clean : fault? config.settings = none := by
    rw [← failure?_resolve, valid]
    rfl
  rw [withSetting, failure?_resolve, failure?_resolve, fault?_insert clean]

theorem withSetting_eq_error_iff (valid : config.Valid) {key value : String}
    {error : PlacementError} :
    config.withSetting key value = .error error ↔
      resolve (Dict.empty.insert key value) = .error error := by
  rw [← failure?_eq_some_iff, ← failure?_eq_some_iff, failure?_withSetting valid]

theorem exists_withSetting_iff (valid : config.Valid) {key value : String} :
    (∃ updated, config.withSetting key value = .ok updated) ↔
      ∃ alone, resolve (Dict.empty.insert key value) = .ok alone := by
  rw [← failure?_eq_none_iff, ← failure?_eq_none_iff, failure?_withSetting valid]

theorem step_valid (valid : config.Valid) (change : String × String) :
    (config.step change).Valid := by
  unfold step
  split
  next updated changed => exact valid_of_resolve changed
  next => exact valid

theorem session_valid (valid : config.Valid) (changes : List (String × String)) :
    (config.session changes).Valid := by
  induction changes generalizing config with
  | nil => exact valid
  | cons change rest ih => exact ih (step_valid valid change)

/-- A session is one resolution of the start with the accepted changes on top. -/
theorem resolve_insertAll_accepted (valid : config.Valid) (changes : List (String × String)) :
    resolve (config.settings.insertAll (config.accepted changes)) =
      .ok (config.session changes) := by
  induction changes generalizing config with
  | nil => exact valid
  | cons change rest ih =>
      rw [session, List.foldl_cons, accepted, step]
      cases changed : config.withSetting change.1 change.2 with
      | ok updated =>
          -- The rest of the session starts from the new snapshot, which is valid again.
          rw [Dict.insertAll_cons, ← settings_of_withSetting changed]
          exact ih (valid_of_resolve changed)
      | error error => exact ih valid

/-- The accepted changes can be picked out one by one, before the session starts. -/
theorem accepted_eq_filter (valid : config.Valid) (changes : List (String × String)) :
    config.accepted changes = changes.filter fun change =>
      (failure? (resolve (Dict.empty.insert change.1 change.2))).isNone := by
  induction changes generalizing config with
  | nil => rfl
  | cons change rest ih =>
      rw [accepted, List.filter_cons, ← failure?_withSetting valid]
      cases changed : config.withSetting change.1 change.2 with
      | ok updated => exact congrArg (change :: ·) (ih (valid_of_resolve changed))
      | error error => exact ih valid

/-- Two changes of different settings lead to the same snapshot in the other order. -/
theorem withSetting_comm (valid : config.Valid) {key value other otherValue : String}
    {middle last : Config} (differ : key ≠ other)
    (first : config.withSetting key value = .ok middle)
    (second : middle.withSetting other otherValue = .ok last) :
    ∃ between, config.withSetting other otherValue = .ok between ∧
      between.withSetting key value = .ok last := by
  have alone := (exists_withSetting_iff (valid_of_resolve first)).mp ⟨last, second⟩
  obtain ⟨between, changed⟩ := (exists_withSetting_iff valid).mpr alone
  refine ⟨between, changed, ?_⟩
  rw [withSetting, settings_of_withSetting changed, ← Dict.insert_comm _ differ,
    ← settings_of_withSetting first]
  exact second

/-- From valid settings on, a session's snapshot is always the resolution of those settings with the
accepted changes on top; a change fails exactly as it fails on its own; and two changes of different
settings that succeed may change places. -/
theorem session_confluent {settings : Settings} {start : Config}
    (resolved : resolve settings = .ok start) (changes : List (String × String)) :
    resolve (settings.insertAll (start.accepted changes)) = .ok (start.session changes) ∧
      (∀ key value error, (start.session changes).withSetting key value = .error error ↔
        resolve (Dict.empty.insert key value) = .error error) ∧
      ∀ key value other otherValue middle last, key ≠ other →
        (start.session changes).withSetting key value = .ok middle →
        middle.withSetting other otherValue = .ok last →
          ∃ between, (start.session changes).withSetting other otherValue = .ok between ∧
            between.withSetting key value = .ok last := by
  have valid := valid_of_resolve resolved
  have current := session_valid valid changes
  refine ⟨?_, ?_, ?_⟩
  · have composed := resolve_insertAll_accepted valid changes
    rwa [(resolve_holds resolved).source] at composed
  · intro key value error
    exact withSetting_eq_error_iff current
  · intro key value other otherValue middle last differ first second
    exact withSetting_comm current differ first second

/-- A size of zero is rejected twice; switches of joins and of sorting may change places. -/
theorem session_confluent_rejected_size :
    let settings : Settings := Dict.empty.insert "accel.sql.ansi.enabled" "true"
    let changes := [("accel.sql.batchSizeBytes", "0"), ("accel.sql.hasNans", "false")]
    let rejection := PlacementError.settingRejected "accel.sql.batchSizeBytes"
      "must be greater than 0"
    ∃ start middle last between, resolve settings = .ok start ∧
      start.accepted changes = [("accel.sql.hasNans", "false")] ∧
      resolve (settings.insertAll (start.accepted changes)) = .ok (start.session changes) ∧
      (start.session changes).withSetting "accel.sql.batchSizeBytes" "0" = .error rejection ∧
      (start.session changes).withSetting "accel.sql.join.enabled" "false" = .ok middle ∧
      middle.withSetting "accel.sql.exec.SortExec" "false" = .ok last ∧
      (start.session changes).withSetting "accel.sql.exec.SortExec" "false" = .ok between ∧
      between.withSetting "accel.sql.join.enabled" "false" = .ok last := by
  intro settings changes rejection
  let start := { Config.default with settings := settings, ansiEnabled := true }
  have resolved : resolve settings = .ok start := rfl
  have current := session_valid (valid_of_resolve resolved) changes
  obtain ⟨middle, first⟩ : ∃ middle,
      (start.session changes).withSetting "accel.sql.join.enabled" "false" = .ok middle :=
    (exists_withSetting_iff current).mpr ⟨_, rfl⟩
  obtain ⟨last, second⟩ : ∃ last,
      middle.withSetting "accel.sql.exec.SortExec" "false" = .ok last :=
    (exists_withSetting_iff (valid_of_resolve first)).mpr ⟨_, rfl⟩
  obtain ⟨composed, alone, swap⟩ := session_confluent resolved changes
  obtain ⟨between, third, fourth⟩ := swap _ _ _ _ middle last (by decide) first second
  exact ⟨start, middle, last, between, resolved, by rfl, composed, (alone _ _ rejection).mpr rfl,
    first, second, third, fourth⟩

end GpuPlacement.Config
