/-!
Names of host node classes. A class is identified by its full name; keys and reports use the part
behind the last dot.
-/
namespace GpuPlacement

structure ClassName where
  name : String
  deriving DecidableEq

namespace ClassName

/-- A full name stays as it is; a plain one is taken from a package. -/
def qualify (package name : String) : ClassName :=
  if name.toList.contains '.' then ⟨name⟩ else ⟨s!"{package}.{name}"⟩

/-- The class of a built-in expression, or of a full name. -/
def expression (name : String) : ClassName :=
  qualify "host.expressions" name

/-- The class of a built-in operator, or of a full name. -/
def operator (name : String) : ClassName :=
  qualify "host.execution" name

/-- The part behind the last dot. -/
def short (className : ClassName) : String :=
  String.ofList (className.name.toList.reverse.takeWhile (· ≠ '.')).reverse

end ClassName

end GpuPlacement
