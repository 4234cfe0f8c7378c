import GpuPlacement.Error
/-!
Where commands read documents from, and what can go wrong while they run.
-/
namespace GpuPlacement.Cli

/-- Why a document cannot be read. -/
inductive ReadFault where
  | notFound
  /-- A file stands where the path needs a directory. -/
  | notADirectory
  /-- The path leads nowhere for another reason: a directory on the way may not be searched, links
  go round in a circle, or a name is too long. -/
  | unreachable (message : String)
  | isDirectory
  | notText
  | other (message : String)
  deriving DecidableEq

namespace ReadFault

def message : ReadFault → String
  | .notFound => "No such file or directory (os error 2)"
  | .notADirectory => "Not a directory (os error 20)"
  | .isDirectory => "Is a directory (os error 21)"
  | .notText => "stream did not contain valid UTF-8"
  | .unreachable message | .other message => message

/-- Whether the path leads to nothing, for whatever reason. What is there but cannot be read is not
absent. -/
def isAbsence : ReadFault → Bool
  | .notFound | .notADirectory | .unreachable _ => true
  | .isDirectory | .notText | .other _ => false

end ReadFault

/-- The documents that a command may read. -/
structure DocumentSource (m : Type → Type) where
  read : String → m (Except ReadFault String)
  readInput : m (Except ReadFault String)

inductive CommandError where
  | unreadable (path : String) (fault : ReadFault)
  | unreadablePlan (path : String) (fault : ReadFault)
  | unreadableInput (fault : ReadFault)
  | malformedProfiles (path : String)
  | invalidSettings (path : String) (error : PlacementError)
  | invalidProfile (profile : String) (error : PlacementError)
  | unknownProfile (profile : String)
  | unknownReportMode (profile value : String)
  | placement (error : PlacementError)
  deriving DecidableEq

def CommandError.message : CommandError → String
  | .unreadable path fault => s!"failed to read {path}: {fault.message}"
  | .unreadablePlan path fault => s!"failed to read plan {path}: {fault.message}"
  | .unreadableInput fault => fault.message
  | .malformedProfiles path =>
    s!"failed to parse CLI config {path}: the text is no profiles document"
  | .invalidSettings path error => s!"invalid settings in {path}: {error.message}"
  | .invalidProfile profile error => s!"profile '{profile}' has invalid settings: {error.message}"
  | .unknownProfile profile => s!"profile '{profile}' not found"
  | .unknownReportMode profile value => s!"profile '{profile}' explain value '{value}' is invalid"
  | .placement error => error.message

end GpuPlacement.Cli
