import GpuPlacement.Settings.Entry
import GpuPlacement.Toml.Printer
import GpuPlacement.Toml.Reader
/-!
Settings from TOML documents: nested tables become dotted keys, and arrays comma-separated lists.
-/
namespace GpuPlacement.Settings

/-- The key of a value below another key; an empty outer key leaves no mark. -/
def joinKey (outer key : String) : String :=
  if outer.isEmpty then key else s!"{outer}.{key}"

/-- An item of a list: strings stand as they are, other values as in a document. -/
def itemText : TomlValue → String
  | .text value => value
  | value => value.toText

mutual

/-- Adds the settings of a value under a key. Moments in time have no raw setting. -/
def addValue (key : String) (settings : Settings) : TomlValue → Except PlacementError Settings
  | .table entries => addEntries key settings entries
  | .text value => .ok (settings.insert key value)
  | .integer value => .ok (settings.insert key (toString value))
  | .float value => .ok (settings.insert key (value.text .report))
  | .boolean value => .ok (settings.insert key (renderBool value))
  | .array items => .ok (settings.insert key (",".intercalate (items.map itemText)))
  | .moment value => .error (.settingMalformed key value.text "scalar or list")

def addEntries (key : String) (settings : Settings) :
    List (String × TomlValue) → Except PlacementError Settings
  | [] => .ok settings
  | (name, value) :: rest =>
    match addValue (joinKey key name) settings value with
    | .ok settings => addEntries key settings rest
    | .error error => .error error

end

/-- The settings of a value, which is a table in most documents. -/
def flatten (value : TomlValue) : Except PlacementError Settings :=
  addValue "" .empty value

/-- The settings under `settings` in a document, or none without that key. -/
def ofDocument (text : String) : Except PlacementError Settings :=
  match TomlDocument.read? text with
  | some (.table entries) =>
    match entries.lookup "settings" with
    | some value => flatten value
    | none => .ok .empty
  | _ => .error .malformedSettings

end GpuPlacement.Settings
