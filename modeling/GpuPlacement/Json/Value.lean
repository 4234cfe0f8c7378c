import GpuPlacement.Number.Layout
/-!
JSON values as they are read and written: object members keep their order and their duplicates,
and numbers keep the kind of number they are.
-/
namespace GpuPlacement

/-- Numbers without a fraction or exponent are integers as long as 64 bits hold them. -/
inductive JsonNumber where
  | integer (value : Int)
  | single (word : Binary32)
  | double (word : Binary64)
  deriving DecidableEq

inductive Json where
  | null
  | bool (value : Bool)
  | number (value : JsonNumber)
  | text (value : String)
  | array (items : List Json)
  | object (members : List (String × Json))
  /-- Well formed text that denotes no value: a number out of range, a lone surrogate. It may be
  skipped, but it cannot be decoded. -/
  | undecodable
  deriving Inhabited

namespace Json

def int (value : Int) : Json :=
  .number (.integer value)

def nat (value : Nat) : Json :=
  .number (.integer value)

/-- Members whose value is absent are left out. -/
def objectOf (members : List (String × Option Json)) : Json :=
  .object (members.filterMap fun member => member.2.map (member.1, ·))

/-- An array, or nothing when there are no items. -/
def arrayUnlessEmpty (items : List Json) : Option Json :=
  if items.isEmpty then none else some (.array items)

/-- The last member of a name. -/
def member? (json : Json) (name : String) : Option Json :=
  match json with
  | .object members => members.reverse.lookup name
  | _ => none

end Json

end GpuPlacement
