import GpuPlacement.Cli.Run
import GpuPlacement.Proofs.Dictionary
import GpuPlacement.Proofs.Placing
/-!
Layers of settings. What a command takes for a key is the value of the last source that sets it,
from the file of the selected profile up to the single settings of the command line. The profile is
the one that is asked for, or else the default one, and neither may be unknown.
-/
namespace GpuPlacement.Cli

namespace SettingLayers

/-- A source of one setting. -/
def single (pair : String × String) : Settings :=
  Dict.empty.insert pair.1 pair.2

/-- Every source of settings, the lowest one first. The report mode of a profile is a source of its
own, and so is each of the single settings. -/
def sources (layers : SettingLayers) : List Settings :=
  [layers.profileFile, layers.profileSettings]
    ++ (layers.profileExplain.map fun mode => single ("accel.sql.explain", mode.name)).toList
    ++ [layers.settingsFile] ++ layers.assignments.map single

theorem insertAll_eq_foldl_overlay (settings : Settings) (pairs : List (String × String)) :
    settings.insertAll pairs = (pairs.map single).foldl Dict.overlay settings := by
  rw [List.foldl_map]
  rfl

/-- The layers lie one over the other in the order of the sources. -/
theorem settings_eq (layers : SettingLayers) :
    layers.settings = layers.sources.foldl Dict.overlay .empty := by
  have lowest : Dict.empty.overlay layers.profileFile = layers.profileFile := by
    apply Dict.ext_get?
    intro key
    rw [Dict.get?_overlay, Dict.get?_empty, Option.or_none]
  have nothing (lower : Settings) : lower.overlay .empty = lower := rfl
  rw [settings, insertAll_eq_foldl_overlay, sources, List.foldl_append]
  cases given : layers.profileExplain with
  | none => simp [explainSettings, lowest, nothing]
  | some mode => simp [explainSettings, lowest, single, Catalog.explain]

/-- The last source that has a key gives its value. -/
theorem get?_overlaid (sources : List Settings) (lower : Settings) (key : String) :
    (sources.foldl Dict.overlay lower).get? key =
      (sources.reverse.findSome? fun source => source.get? key).or (lower.get? key) := by
  induction sources generalizing lower with
  | nil => rfl
  | cons source rest ih =>
      rw [List.foldl_cons, ih, Dict.get?_overlay, List.reverse_cons, List.findSome?_append,
        List.findSome?_singleton, Option.or_assoc]

end SettingLayers

/-- Of several sources that set a key the last one counts, and no other key is set. -/
theorem get?_settings_iff {layers : SettingLayers} {key value : String} :
    layers.settings.get? key = some value ↔ ∃ before source after,
      layers.sources = before ++ source :: after ∧ source.get? key = some value ∧
        ∀ later ∈ after, later.get? key = none := by
  rw [SettingLayers.settings_eq, SettingLayers.get?_overlaid, Dict.get?_empty, Option.or_none,
    Dict.findSome?_reverse_eq_some_iff]

/-- The profile that a command goes by: the one that is asked for, or else the default one. -/
inductive Profiles.Chooses (profiles : Profiles) : Option String → Option Profile → Prop
  | asked {name : String} {profile : Profile} (known : profiles.byName.get? name = some profile) :
    Chooses profiles (some name) (some profile)
  | default {name : String} {profile : Profile} (preset : profiles.defaultName = some name)
    (known : profiles.byName.get? name = some profile) : Chooses profiles .none (some profile)
  | nothing (unset : profiles.defaultName = .none) : Chooses profiles .none .none

section

variable {profiles : Profiles} {asked : Option String} {name : String}

theorem Profiles.select_known {profile : Profile}
    (named : asked.or profiles.defaultName = some name)
    (known : profiles.byName.get? name = some profile) :
    profiles.select asked = .ok (some profile) := by
  simp only [select, named, known]

theorem Profiles.select_unknown (named : asked.or profiles.defaultName = some name)
    (unknown : profiles.byName.get? name = .none) :
    profiles.select asked = .error (.unknownProfile name) := by
  simp only [select, named, unknown]

end

theorem Profiles.Chooses.select {profiles : Profiles} {asked : Option String}
    {profile : Option Profile} (chooses : profiles.Chooses asked profile) :
    profiles.select asked = .ok profile := by
  cases chooses with
  | asked known => exact select_known Option.some_or known
  | default preset known => exact select_known (Option.none_or.trans preset) known
  | nothing unset => rw [Profiles.select, Option.none_or, unset]

/-- A document settles its profiles under their own names. -/
theorem Profiles.names_settleAll {drafts : List (String × Draft)}
    {settled : List (String × Profile)} (h : settleAll drafts = .ok settled) :
    settled.map (·.1) = drafts.map (·.1) := by
  induction drafts generalizing settled with
  | nil =>
      cases h
      rfl
  | cons entry rest ih =>
      obtain ⟨profile, -, later⟩ := bind_eq_ok_iff.mp h
      obtain ⟨others, settles, same⟩ := bind_eq_ok_iff.mp later
      cases same
      rw [List.map_cons, List.map_cons, ih settles]

/-- The default profile of a document has to be one of its profiles. Where the others are in order,
its name is what is wrong. -/
theorem Profiles.exists_unknown_default (path : String) {text name : String}
    {drafts : List (String × Draft)} (read : readDrafts? text = some (drafts, some name))
    (unknown : name ∉ drafts.map (·.1)) :
    ∃ error, ofDocument path text = .error error ∧
      ∀ settled, settleAll drafts = .ok settled → error = .unknownProfile name := by
  rw [ofDocument, read]
  dsimp only
  cases settles : settleAll drafts with
  | error error => exact ⟨error, rfl, nofun⟩
  | ok settled =>
      have absent : ¬(Dict.ofList settled).contains name = true := by
        rw [Dict.contains_ofList_iff, names_settleAll settles]
        exact unknown
      exact ⟨.unknownProfile name, if_neg absent, fun _ _ => rfl⟩

section

variable {ε α β : Type}

theorem run_bind_ok {result : ExceptT ε Id α} {next : α → ExceptT ε Id β} {value : α}
    (h : result.run = .ok value) : (result >>= next).run = (next value).run := by
  rw [ExceptT.run_bind, h]
  rfl

theorem run_bind_error {result : ExceptT ε Id α} {next : α → ExceptT ε Id β} {error : ε}
    (h : result.run = .error error) : (result >>= next).run = .error error := by
  rw [ExceptT.run_bind, h]
  rfl

end

section

variable {source : DocumentSource Id} {defaultFile : Option String} {options : CommonOptions}

theorem run_readLayers {profiles : Profiles} {profile : Option Profile} {below above : Settings}
    (found : (readProfiles source (options.profilesFile.or defaultFile)).run = .ok profiles)
    (chooses : profiles.Chooses options.profile profile)
    (lower : (readSettings source (profile.bind Profile.settingsFile)).run = .ok below)
    (upper : (readSettings source options.settingsFile).run = .ok above) :
    (readLayers source defaultFile options).run =
      .ok ⟨below, (profile.map Profile.settings).getD .empty, profile.bind Profile.explain, above,
        options.assignments⟩ := by
  have selected : (ExceptT.mk (m := Id) (pure (profiles.select options.profile))).run =
      .ok profile := chooses.select
  rw [readLayers, run_bind_ok found, run_bind_ok selected, run_bind_ok lower, run_bind_ok upper]
  rfl

theorem run_readLayers_of_unselected {profiles : Profiles} {error : CommandError}
    (found : (readProfiles source (options.profilesFile.or defaultFile)).run = .ok profiles)
    (refused : profiles.select options.profile = .error error) :
    (readLayers source defaultFile options).run = .error error := by
  have selected : (ExceptT.mk (m := Id) (pure (profiles.select options.profile))).run =
      .error error := refused
  rw [readLayers, run_bind_ok found, run_bind_error selected]

theorem run_readConfig_of_error {error : CommandError}
    (failed : (readLayers source defaultFile options).run = .error error) :
    (readConfig source defaultFile options).run = .error error :=
  run_bind_error failed

theorem run_readProfiles {path text : String} (read : (source.read path).run = .ok text) :
    (readProfiles source (some path)).run = Profiles.ofDocument path text := by
  have given : ((source.read path : Id _) : ExceptT CommandError Id _).run = .ok (.ok text) :=
    congrArg Except.ok read
  exact run_bind_ok given

end

/-- The settings of a command are those of its sources, the profile's file first, then the profile's
own settings and report mode, the settings file, and the single settings in their order. For each
key the last source that has it counts, and no other key is set. A name that is no profile's fails
the command, be it asked for or the default of the profiles document. -/
theorem readConfig_layered (source : DocumentSource Id) (defaultFile : Option String)
    (options : CommonOptions) :
    (∀ profiles profile below above,
      (readProfiles source (options.profilesFile.or defaultFile)).run = .ok profiles →
      profiles.Chooses options.profile profile →
      (readSettings source (profile.bind Profile.settingsFile)).run = .ok below →
      (readSettings source options.settingsFile).run = .ok above →
      ∃ layers, (readLayers source defaultFile options).run = .ok layers ∧
        layers.sources = [below, (profile.map Profile.settings).getD .empty]
          ++ ((profile.bind Profile.explain).map fun mode =>
            SettingLayers.single ("accel.sql.explain", mode.name)).toList
          ++ [above] ++ options.assignments.map SettingLayers.single ∧
        (readConfig source defaultFile options).run =
          (Config.resolve layers.settings).mapError .placement ∧
        ∀ key value, layers.settings.get? key = some value ↔ ∃ before source after,
          layers.sources = before ++ source :: after ∧ source.get? key = some value ∧
            ∀ later ∈ after, later.get? key = none) ∧
    (∀ profiles name,
      (readProfiles source (options.profilesFile.or defaultFile)).run = .ok profiles →
      options.profile = some name → profiles.byName.get? name = none →
      (readConfig source defaultFile options).run = .error (.unknownProfile name)) ∧
    ∀ path text drafts name, options.profilesFile.or defaultFile = some path →
      (source.read path).run = .ok text →
      Profiles.readDrafts? text = some (drafts, some name) → name ∉ drafts.map (·.1) →
      ∃ error, (readConfig source defaultFile options).run = .error error ∧
        ∀ settled, Profiles.settleAll drafts = .ok settled → error = .unknownProfile name := by
  refine ⟨?layered, ?asked, ?preset⟩
  case layered =>
    intro profiles profile below above found chooses lower upper
    have gathered := run_readLayers found chooses lower upper
    exact ⟨_, gathered, rfl, run_bind_ok gathered, fun key value => get?_settings_iff⟩
  case asked =>
    intro profiles name found named unknown
    have refused : profiles.select options.profile = .error (.unknownProfile name) := by
      rw [named]
      exact Profiles.select_unknown Option.some_or unknown
    exact run_readConfig_of_error (run_readLayers_of_unselected found refused)
  case preset =>
    intro path text drafts name file given read unknown
    obtain ⟨error, refused, told⟩ := Profiles.exists_unknown_default path read unknown
    have unread : (readProfiles source (options.profilesFile.or defaultFile)).run =
        .error error := by
      rw [file, run_readProfiles given, refused]
    exact ⟨error, run_bind_error (run_bind_error unread), told⟩

/-- A default profile with a report mode, and a settings file beside it. -/
def lenientSource : DocumentSource Id where
  read
    | "cli.toml" => .ok <| "default_profile = \"lenient\"\n\n[profiles.lenient]\n"
        ++ "explain = \"NOT_ON_GPU\"\n\n[profiles.lenient.settings]\n"
        ++ "\"accel.sql.incompatibleOps.enabled\" = true\n"
    | "settings.toml" => .ok "[settings]\n\"accel.sql.expression.Upper\" = false\n"
    | _ => .error .notFound
  readInput := .error .notFound

/-- The report mode is set by the profile and then twice on the command line. -/
def repeatedOptions : CommonOptions :=
  ⟨none, none, some "settings.toml",
    [("accel.sql.explain", "ALL"), ("accel.sql.explain", "NONE")], none⟩

deriving instance DecidableEq for Profiles

theorem readConfig_layered_lenient :
    ∃ layers, (readLayers lenientSource (some "cli.toml") repeatedOptions).run = .ok layers ∧
      (readConfig lenientSource (some "cli.toml") repeatedOptions).run =
        (Config.resolve layers.settings).mapError .placement ∧
      layers.settings.get? "accel.sql.explain" = some "NONE" ∧
      layers.settings.get? "accel.sql.expression.Upper" = some "false" ∧
      layers.settings.get? "accel.sql.incompatibleOps.enabled" = some "true" := by
  let lenient : Profile :=
    ⟨none, some .notOnGpu, Dict.empty.insert "accel.sql.incompatibleOps.enabled" "true"⟩
  let upper : Settings := Dict.empty.insert "accel.sql.expression.Upper" "false"
  let mode (value : String) : Settings := SettingLayers.single ("accel.sql.explain", value)
  have found : (readProfiles lenientSource (some "cli.toml")).run.run =
      .ok ⟨Dict.empty.insert "lenient" lenient, some "lenient"⟩ := by
    decide +kernel
  have above : (readSettings lenientSource (some "settings.toml")).run.run = .ok upper := by
    decide +kernel
  obtain ⟨layers, gathered, listed, resolved, taken⟩ :=
    (readConfig_layered lenientSource (some "cli.toml") repeatedOptions).1
      _ _ .empty upper found (.default rfl rfl) rfl above
  refine ⟨layers, gathered, resolved, ?_⟩
  simp only [taken, listed]
  refine ⟨⟨[.empty, lenient.settings, mode "NOT_ON_GPU", upper, mode "ALL"], mode "NONE", [], ?_⟩,
    ⟨[.empty, lenient.settings, mode "NOT_ON_GPU"], upper, [mode "ALL", mode "NONE"], ?_⟩,
    ⟨[.empty], lenient.settings, [mode "NOT_ON_GPU", upper, mode "ALL", mode "NONE"], ?_⟩⟩
  all_goals exact ⟨rfl, by decide, by decide⟩

end GpuPlacement.Cli
