/-!
What can go wrong while settings are resolved or a plan is placed. A node that cannot run on the
device is no error: it keeps its reasons and stays on the host.
-/
namespace GpuPlacement

/-- Why the structure of a plan is invalid. -/
inductive PlanFault where
  | blankOperatorClass
  | blankExpressionClass
  | elidedWithoutChild (node : String)
  | elidedWithoutInput (node : String)
  | described (text : String)
  deriving DecidableEq

namespace PlanFault

def message : PlanFault → String
  | .blankOperatorClass => "operator class must not be empty"
  | .blankExpressionClass => "expression class must not be empty"
  | .elidedWithoutChild node => s!"{node} was marked as a no-op but has no child"
  | .elidedWithoutInput node => s!"{node} was marked as a no-op but has no input"
  | .described text => text

end PlanFault

inductive PlacementError where
  /-- A raw setting is no value of the declared type. -/
  | settingMalformed (key value expected : String)
  /-- A setting's value fails the check of its entry. -/
  | settingRejected (key message : String)
  /-- Conversion was asked for a node that cannot run on the device. -/
  | notConvertible (node : String) (reasons : List String)
  /-- In test mode a node stayed on the host without leave to do so. -/
  | leftOnHost (node : String) (reasons : List String)
  /-- A strict registration met a rule of the same class. -/
  | duplicateRule (key : String)
  | unknownReportMode (value : String)
  | invalidPlan (fault : PlanFault)
  | malformedSettings
  | malformedPlan
  | inputOutput (text : String)
  deriving DecidableEq

namespace PlacementError

def message : PlacementError → String
  | .settingMalformed key value expected => s!"{key} should be {expected}, but was '{value}'"
  | .settingRejected key message => s!"invalid value for {key}: {message}"
  | .notConvertible node reasons =>
    s!"cannot convert {node} to GPU: " ++ "; ".intercalate reasons
  | .leftOnHost node reasons =>
    s!"part of the plan is not on the GPU: {node} because " ++ "; ".intercalate reasons
  | .duplicateRule key => s!"a rule is already registered for {key}"
  | .unknownReportMode value => s!"explain mode '{value}' must be ALL, NONE, or NOT_ON_GPU"
  | .invalidPlan fault => s!"invalid plan: {fault.message}"
  | .malformedSettings => "failed to parse settings: the text is no settings document"
  | .malformedPlan => "failed to parse plan: the text is no plan document"
  | .inputOutput text => text

/-- A name of the kind of error for programs that read it. -/
def code : PlacementError → String
  | .settingMalformed .. => "ConfigParse"
  | .settingRejected .. => "ConfigValidation"
  | .notConvertible .. => "ConversionInvariant"
  | .leftOnHost .. => "NotOnGpu"
  | .duplicateRule _ => "DuplicateRule"
  | .unknownReportMode _ => "InvalidExplainMode"
  | .invalidPlan _ => "InvalidPlan"
  | .malformedSettings => "Toml"
  | .malformedPlan => "Json"
  | .inputOutput _ => "Io"

/-- Whether planning ends because the settings are unusable. -/
def isSettingError : PlacementError → Bool
  | .settingMalformed .. | .settingRejected .. => true
  | _ => false

end PlacementError

end GpuPlacement
