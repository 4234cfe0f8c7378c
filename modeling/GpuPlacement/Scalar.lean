import GpuPlacement.DataType
import GpuPlacement.Number.Layout
/-!
Literal values of host plans and of folded device literals.
-/
namespace GpuPlacement

inductive Scalar where
  /-- A null of a type. -/
  | null (type : DataType)
  | boolean (value : Bool)
  | byte (value : Int8)
  | short (value : Int16)
  | int (value : Int32)
  | long (value : Int64)
  | float (value : Binary32)
  | double (value : Binary64)
  | string (value : String)
  /-- Days since the epoch. -/
  | date (days : Int32)
  /-- Microseconds since the epoch. -/
  | timestamp (micros : Int64)
  deriving DecidableEq, Inhabited

namespace Scalar

def type : Scalar → DataType
  | .null type => type
  | .boolean _ => .boolean
  | .byte _ => .byte
  | .short _ => .short
  | .int _ => .int
  | .long _ => .long
  | .float _ => .float
  | .double _ => .double
  | .string _ => .string
  | .date _ => .date
  | .timestamp _ => .timestamp

def isNull : Scalar → Bool
  | .null _ => true
  | _ => false

/-- The value of an integral scalar. -/
def integer? : Scalar → Option Int
  | .byte value => some value.toInt
  | .short value => some value.toInt
  | .int value => some value.toInt
  | .long value => some value.toInt
  | _ => none

/-- The text of a literal in reports. -/
def text : Scalar → String
  | .null _ => "null"
  | .boolean value => if value then "true" else "false"
  | .byte value => toString value.toInt
  | .short value => toString value.toInt
  | .int value => toString value.toInt
  | .long value => toString value.toInt ++ "L"
  | .float value => value.text .report ++ "F"
  | .double value => value.text .report ++ "D"
  | .string value => s!"'{value}'"
  | .date days => "DATE " ++ toString days.toInt
  | .timestamp micros => "TIMESTAMP " ++ toString micros.toInt

end Scalar

end GpuPlacement
