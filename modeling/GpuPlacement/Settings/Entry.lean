import GpuPlacement.Data.Dict
import GpuPlacement.Error
import GpuPlacement.Settings.Value
/-!
Declared settings: a key, documentation, a default and an optional check of the value.
-/
namespace GpuPlacement

/-- Raw settings. -/
abbrev Settings := Dict String

/-- A check of parsed values and the message for values that fail it. -/
structure Validator (α : Type) where
  check : α → Bool
  message : String

structure Entry (α : Type) where
  key : String
  doc : String
  /-- Internal entries are left out of the documentation. -/
  internal : Bool
  default : α
  validator : Option (Validator α)

namespace Entry

variable {α : Type} [SettingValue α]

/-- The value of a raw text: it has to be a value of the type and to pass the check. -/
def valueOf (entry : Entry α) (raw : String) : Except PlacementError α :=
  match SettingValue.parse raw with
  | none => .error (.settingMalformed entry.key raw (SettingValue.typeName α))
  | some value =>
    match entry.validator with
    | none => .ok value
    | some validator =>
      if validator.check value then .ok value
      else .error (.settingRejected entry.key validator.message)

/-- The value that settings give an entry; the default is not checked. -/
def resolve (entry : Entry α) (settings : Settings) : Except PlacementError α :=
  match settings.get? entry.key with
  | none => .ok entry.default
  | some raw => entry.valueOf raw

end Entry

/-- An entry of any type, seen through raw settings. -/
structure EntryView where
  key : String
  doc : String
  internal : Bool
  defaultText : String
  resolveText : Settings → Except PlacementError String

namespace EntryView

/-- Whether settings give the entry a value. -/
def accepts (view : EntryView) (settings : Settings) : Bool :=
  match view.resolveText settings with
  | .ok _ => true
  | .error _ => false

end EntryView

def Entry.view {α : Type} [SettingValue α] (entry : Entry α) : EntryView where
  key := entry.key
  doc := entry.doc
  internal := entry.internal
  defaultText := SettingValue.render entry.default
  resolveText settings := (entry.resolve settings).map SettingValue.render

end GpuPlacement
