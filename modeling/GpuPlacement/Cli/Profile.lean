import GpuPlacement.Cli.Source
import GpuPlacement.Settings.Flatten
/-!
Profiles: named bundles of settings in a document, one of which may be the default.
-/
namespace GpuPlacement.Cli

structure Profile where
  /-- A settings file that lies below the profile's own settings. -/
  settingsFile : Option String
  explain : Option ReportMode
  settings : Settings
  deriving DecidableEq

structure Profiles where
  byName : Dict Profile
  defaultName : Option String

namespace Profiles

/-- No profiles, and no default. -/
def none : Profiles := ⟨.empty, .none⟩

/-- The entries of a record: a table, or an array of its first fields in order. A moment in time
counts as a table of no fields. -/
def recordEntries? (names : List String) (required : Nat) :
    TomlValue → Option (List (String × TomlValue))
  | .table entries => some entries
  | .array items => if required ≤ items.length then some (names.zip items) else .none
  | .moment _ => some []
  | _ => .none

/-- The entries of a table. -/
def tableEntries? (value : TomlValue) : Option (List (String × TomlValue)) :=
  match value with
  | .table entries => some entries
  | .moment _ => some []
  | _ => .none

/-- A text that may be absent. -/
def textEntry? (entries : List (String × TomlValue)) (name : String) : Option (Option String) :=
  match entries.lookup name with
  | .none => some .none
  | some (.text value) => some (some value)
  | some _ => .none

/-- A profile as it is written. -/
structure Draft where
  settingsFile : Option String
  explain : Option String
  settings : List (String × TomlValue)

def Draft.ofValue? (value : TomlValue) : Option Draft := do
  let entries ← recordEntries? ["settings_file", "explain", "settings"] 2 value
  let settingsFile ← textEntry? entries "settings_file"
  let explain ← textEntry? entries "explain"
  let settings ←
    match entries.lookup "settings" with
    | .none => some []
    | some value => tableEntries? value
  some ⟨settingsFile, explain, settings⟩

def draftsOf? : List (String × TomlValue) → Option (List (String × Draft))
  | [] => some []
  | (name, value) :: rest =>
    match Draft.ofValue? value with
    | some draft => (draftsOf? rest).map ((name, draft) :: ·)
    | .none => .none

/-- The drafts of a document and the name of the default profile. Other keys are skipped. -/
def readDrafts? (text : String) : Option (List (String × Draft) × Option String) := do
  let root ← TomlDocument.read? text
  let entries ← tableEntries? root
  let drafts ←
    match entries.lookup "profiles" with
    | .none => some []
    | some (.table profiles) => draftsOf? profiles
    | some _ => .none
  let defaultName ← textEntry? entries "default_profile"
  some (drafts, defaultName)

/-- The profile of a draft: its report mode has to be known and its settings have to be flat
values. -/
def settle (name : String) (draft : Draft) : Except CommandError Profile := do
  let explain ←
    match draft.explain with
    | .none => pure .none
    | some value =>
      match ReportMode.ofText? value with
      | some mode => pure (some mode)
      | .none => .error (.unknownReportMode name value)
  let settings ←
    (Settings.flatten (.table draft.settings)).mapError (CommandError.invalidProfile name)
  return ⟨draft.settingsFile, explain, settings⟩

def settleAll : List (String × Draft) → Except CommandError (List (String × Profile))
  | [] => .ok []
  | (name, draft) :: rest => do
    let profile ← settle name draft
    let profiles ← settleAll rest
    return (name, profile) :: profiles

/-- The profiles of a document; its default has to be among them. -/
def ofDocument (path text : String) : Except CommandError Profiles :=
  match readDrafts? text with
  | .none => .error (.malformedProfiles path)
  | some (drafts, defaultName) => do
    let profiles ← settleAll drafts
    let byName := Dict.ofList profiles
    match defaultName with
    | some name =>
      if byName.contains name then return ⟨byName, some name⟩ else .error (.unknownProfile name)
    | .none => return ⟨byName, .none⟩

/-- The profile of an explicit name, or else the default one. -/
def select (profiles : Profiles) (name : Option String) : Except CommandError (Option Profile) :=
  match name.or profiles.defaultName with
  | .none => .ok .none
  | some name =>
    match profiles.byName.get? name with
    | some profile => .ok (some profile)
    | .none => .error (.unknownProfile name)

end Profiles

end GpuPlacement.Cli
