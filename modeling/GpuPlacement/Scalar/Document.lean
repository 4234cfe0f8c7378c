import GpuPlacement.Scalar
import GpuPlacement.DataType.Document
/-!
Scalars in plan documents: objects whose one member is named for the type.
-/
namespace GpuPlacement.Scalar

def toJson : Scalar → Json
  | .null type => .object [("null", type.toJson)]
  | .boolean value => .object [("boolean", .bool value)]
  | .byte value => .object [("byte", .int value.toInt)]
  | .short value => .object [("short", .int value.toInt)]
  | .int value => .object [("int", .int value.toInt)]
  | .long value => .object [("long", .int value.toInt)]
  | .float value => .object [("float", .number (.single value))]
  | .double value => .object [("double", .number (.double value))]
  | .string value => .object [("string", .text value)]
  | .date days => .object [("date", .int days.toInt)]
  | .timestamp micros => .object [("timestamp", .int micros.toInt)]

/-- Decodes a scalar while `nesting` containers may still open. -/
def ofJson? (nesting : Nat) (json : Json) : Option Scalar :=
  match nesting, json with
  | inside + 1, .object [(name, content)] =>
    match name with
    | "null" => (DataType.ofJson? inside content).map .null
    | "boolean" => content.bool?.map .boolean
    | "byte" =>
      (content.intIn? Int8.minValue.toInt Int8.maxValue.toInt).map
        fun value => .byte (.ofInt value)
    | "short" =>
      (content.intIn? Int16.minValue.toInt Int16.maxValue.toInt).map
        fun value => .short (.ofInt value)
    | "int" =>
      (content.intIn? Int32.minValue.toInt Int32.maxValue.toInt).map
        fun value => .int (.ofInt value)
    | "long" =>
      (content.intIn? Int64.minValue.toInt Int64.maxValue.toInt).map
        fun value => .long (.ofInt value)
    | "float" => content.single?.map .float
    | "double" => content.double?.map .double
    | "string" => content.text?.map .string
    | "date" =>
      (content.intIn? Int32.minValue.toInt Int32.maxValue.toInt).map
        fun value => .date (.ofInt value)
    | "timestamp" =>
      (content.intIn? Int64.minValue.toInt Int64.maxValue.toInt).map
        fun value => .timestamp (.ofInt value)
    | _ => none
  | _, _ => none

end GpuPlacement.Scalar
