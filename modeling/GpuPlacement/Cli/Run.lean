import GpuPlacement.Builtin.OperatorRules
import GpuPlacement.Cli.Options
import GpuPlacement.Cli.Profile
import GpuPlacement.Device.Document
import GpuPlacement.Host.Document
import GpuPlacement.Json.Printer
import GpuPlacement.Placement
import GpuPlacement.Registry.Parity
import GpuPlacement.Text.Lines
/-!
The commands: settings are gathered in layers, a plan is read, and what is decided about it is
written as text.
-/
namespace GpuPlacement.Cli

/-- The program's name and version. -/
def versionText : String := "accelplan 0.4.0"

/-- The sources of settings, the lowest one first. -/
structure SettingLayers where
  profileFile : Settings
  profileSettings : Settings
  profileExplain : Option ReportMode
  settingsFile : Settings
  assignments : List (String × String)

namespace SettingLayers

/-- The settings of no source. -/
def none : SettingLayers := ⟨.empty, .empty, .none, .empty, []⟩

/-- A profile's report mode as settings. -/
def explainSettings : Option ReportMode → Settings
  | .none => .empty
  | some mode => Dict.empty.insert Catalog.explain.key mode.name

/-- All settings; of one key the last source counts. -/
def settings (layers : SettingLayers) : Settings :=
  ((((layers.profileFile.overlay layers.profileSettings).overlay
    (explainSettings layers.profileExplain)).overlay layers.settingsFile).insertAll
    layers.assignments)

end SettingLayers

/-- What a command writes, and its exit code. -/
structure Outcome where
  code : Nat
  output : String
  /-- One line for each complaint. -/
  complaints : List String
  deriving DecidableEq

namespace Outcome

def ofOutput (output : String) : Outcome := ⟨0, output, []⟩

/-- A note in place of a report. -/
def note (text : String) : Outcome := ofOutput s!"ℹ {text}\n"

def ofError (error : CommandError) : Outcome := ⟨1, "", [error.message]⟩

end Outcome

def heading (title : String) : String := s!"▸ {title}\n"

/-- Rows of names and values; the names end in one column. -/
def rowLines (rows : List (String × String)) : String :=
  let width := (rows.map fun row => row.1.length).foldl max 0
  String.join (rows.map fun row =>
    "  " ++ String.ofList (List.replicate (width - row.1.length) ' ') ++ s!"{row.1}: {row.2}\n")

def summaryRows (plan : PlacedPlan) : List (String × String) :=
  [("gpu nodes", toString plan.stats.gpuNodes), ("host nodes", toString plan.stats.hostNodes),
    ("transitions", toString plan.stats.transitions),
    ("fingerprint", Fingerprint.text plan.fingerprint)]

/-- A placement as text: its report, if there is one, the plan, and the summary. -/
def placementText (placement : Placement) : String :=
  let report :=
    if placement.report.isEmpty then "" else settleLineEnds placement.report ++ "\n"
  report ++ heading "Plan" ++ settleLineEnds placement.plan.root.treeText ++ "\n"
    ++ heading "Summary" ++ rowLines (summaryRows placement.plan)

/-- What is decided about a plan. Where settings ask for no report, every node is shown. -/
def explain (config : Config) (plan : HostPlan) (mode : Option ReportMode) : Outcome :=
  let mode := mode.getD (if config.explain = .none then .all else config.explain)
  let report := (tagPlan Builtin.registry config plan).report mode
  if report.isEmpty then .note "nothing to report" else .ofOutput (settleLineEnds report)

def convert (config : Config) (plan : HostPlan) (format : OutputFormat) :
    Except PlacementError Outcome :=
  (place Builtin.registry config plan).map fun placement =>
    match format with
    | .json => .ofOutput (placement.plan.toJson.pretty ++ "\n")
    | .text => .ofOutput (placementText placement)

def documentation : DocsTopic → String
  | .configs => Catalog.documentation
  | .rules => Builtin.registry.documentation

def parity (config : Config) : Outcome :=
  match Builtin.registry.parityMismatches config with
  | [] => .note "all converters match the parity table"
  | mismatches => ⟨2, "", mismatches⟩

section Reading

variable {m : Type → Type} [Monad m] (source : DocumentSource m)

/-- The profiles of a file, or none when there is no such file. -/
def readProfiles (file : Option String) : ExceptT CommandError m Profiles := do
  match file with
  | none => return .none
  | some path =>
    match ← (source.read path : m _) with
    | .ok text => liftExcept (Profiles.ofDocument path text)
    | .error fault =>
      if fault.isAbsence then return .none else throw (.unreadable path fault)
where
  liftExcept {α : Type} (result : Except CommandError α) : ExceptT CommandError m α :=
    ExceptT.mk (pure result)

/-- The settings of a file, or no settings without a file. -/
def readSettings (file : Option String) : ExceptT CommandError m Settings := do
  match file with
  | none => return .empty
  | some path =>
    match ← (source.read path : m _) with
    | .ok text =>
      ExceptT.mk (pure ((Settings.ofDocument text).mapError (CommandError.invalidSettings path)))
    | .error fault => throw (.unreadable path fault)

/-- The layers of a command: of the selected profile, of the settings file, and of the single
settings. -/
def readLayers (defaultFile : Option String) (options : CommonOptions) :
    ExceptT CommandError m SettingLayers := do
  let profiles ← readProfiles source (options.profilesFile.or defaultFile)
  let profile ← ExceptT.mk (pure (profiles.select options.profile))
  let profileFile ← readSettings source (profile.bind Profile.settingsFile)
  let settingsFile ← readSettings source options.settingsFile
  return {
    profileFile
    profileSettings := (profile.map Profile.settings).getD .empty
    profileExplain := profile.bind Profile.explain
    settingsFile
    assignments := options.assignments }

def readConfig (defaultFile : Option String) (options : CommonOptions) :
    ExceptT CommandError m Config := do
  let layers ← readLayers source defaultFile options
  ExceptT.mk (pure ((Config.resolve layers.settings).mapError .placement))

/-- The plan of a file; a hyphen stands for the input. -/
def readPlan (path : String) : ExceptT CommandError m HostPlan := do
  let text ←
    if path = "-" then
      match ← (source.readInput : m _) with
      | .ok text => pure text
      | .error fault => throw (.unreadableInput fault)
    else
      match ← (source.read path : m _) with
      | .ok text => pure text
      | .error fault => throw (.unreadablePlan path fault)
  ExceptT.mk (pure ((HostPlan.ofDocument text).mapError .placement))

/-- Runs a command. Settings are resolved before the plan is read. -/
def run (defaultFile : Option String) (invocation : Invocation) :
    ExceptT CommandError m Outcome := do
  match invocation.command with
  | .docs topic => return .ofOutput (documentation topic)
  | .parity => return parity (← readConfig source defaultFile invocation.options)
  | .explain path mode =>
    let config ← readConfig source defaultFile invocation.options
    return explain config (← readPlan source path) mode
  | .convert path format =>
    let config ← readConfig source defaultFile invocation.options
    let plan ← readPlan source path
    ExceptT.mk (pure ((convert config plan format).mapError .placement))

end Reading

end GpuPlacement.Cli
