import GpuPlacement.Host.Plan
import GpuPlacement.Json.Reader
import GpuPlacement.Scalar.Document
/-!
Plan documents. Fields with defaults may be absent, and empty ones are not written. Decoders count
how many containers may still open.
-/
namespace GpuPlacement

namespace ParamValue

def toJson : ParamValue → Json
  | .bool value => .object [("bool", .bool value)]
  | .int value => .object [("int", .int value.toInt)]
  | .float value => .object [("float", .number (.double value))]
  | .text value => .object [("str", .text value)]
  | .type value => .object [("type", value.toJson)]
  | .scalar value => .object [("scalar", value.toJson)]
  | .list items => .object [("list", .array (items.map Json.text))]

def ofJson? (nesting : Nat) (json : Json) : Option ParamValue :=
  match nesting, json with
  | inside + 1, .object [(name, content)] =>
    match name with
    | "bool" => content.bool?.map .bool
    | "int" =>
      (content.intIn? Int64.minValue.toInt Int64.maxValue.toInt).map
        fun value => .int (.ofInt value)
    | "float" => content.double?.map .float
    | "str" => content.text?.map .text
    | "type" => (DataType.ofJson? inside content).map .type
    | "scalar" => (Scalar.ofJson? inside content).map .scalar
    | "list" => if inside = 0 then none else (content.listOf? Json.text?).map .list
    | _ => none
  | _, _ => none

end ParamValue

namespace Params

def toJson (params : Params) : Json :=
  .object (params.entries.map fun entry => (entry.1, entry.2.toJson))

def toJsonUnlessEmpty (params : Params) : Option Json :=
  if params.isEmpty then none else some params.toJson

def ofJson? : Nat → Json → Option Params
  | 0, _ => none
  | nesting + 1, json => json.dictOf? (ParamValue.ofJson? nesting)

end Params

namespace Column

def toJson (column : Column) : Json :=
  .object [("name", .text column.name), ("data_type", column.type.toJson),
    ("nullable", .bool column.nullable)]

def fieldNames : List String := ["name", "data_type", "nullable"]

def ofJson? : Nat → Json → Option Column
  | 0, _ => none
  | nesting + 1, json => do
    let fields ← json.fields? fieldNames
    let name ← fields.required? "name" Json.text?
    let type ← fields.required? "data_type" (DataType.ofJson? nesting)
    let nullable ← fields.withDefault? "nullable" true Json.bool?
    some ⟨name, type, nullable⟩

def listOfJson? : Nat → Json → Option (List Column)
  | 0, _ => none
  | nesting + 1, json => json.listOf? (ofJson? nesting)

end Column

namespace HostExpr

mutual

def toJson : HostExpr → Json
  | ⟨className, type, nullable, name, params, children⟩ =>
    .objectOf [("class", some (.text className.name)), ("data_type", some type.toJson),
      ("nullable", some (.bool nullable)), ("name", name.map Json.text),
      ("params", params.toJsonUnlessEmpty), ("children", Json.arrayUnlessEmpty (toJsonAll children))]

def toJsonAll : List HostExpr → List Json
  | [] => []
  | expr :: rest => expr.toJson :: toJsonAll rest

end

def fieldNames : List String :=
  ["class", "data_type", "nullable", "name", "params", "children"]

mutual

def ofJson? : Nat → Json → Option HostExpr
  | 0, _ => none
  | nesting + 1, json => do
    let fields ← json.fields? fieldNames
    let name ← fields.required? "class" Json.text?
    let type ← fields.required? "data_type" (DataType.ofJson? nesting)
    let nullable ← fields.withDefault? "nullable" true Json.bool?
    let label ← fields.withDefault? "name" none (Json.optional? Json.text?)
    let params ← fields.withDefault? "params" .empty (Params.ofJson? nesting)
    let children ← fields.withDefault? "children" [] (listOfJson? nesting)
    some ⟨⟨name⟩, type, nullable, label, params, children⟩

def listOfJson? : Nat → Json → Option (List HostExpr)
  | 0, _ => none
  | nesting + 1, json => json.listOf? (ofJson? nesting)

end

end HostExpr

namespace HostPlan

mutual

def toJson : HostPlan → Json
  | ⟨className, output, expressions, partitioning, params, children⟩ =>
    .objectOf [("class", some (.text className.name)),
      ("output", Json.arrayUnlessEmpty (output.map Column.toJson)),
      ("expressions", Json.arrayUnlessEmpty (HostExpr.toJsonAll expressions)),
      ("partitioning", partitioning.map HostExpr.toJson),
      ("params", params.toJsonUnlessEmpty), ("children", Json.arrayUnlessEmpty (toJsonAll children))]

def toJsonAll : List HostPlan → List Json
  | [] => []
  | plan :: rest => plan.toJson :: toJsonAll rest

end

def fieldNames : List String :=
  ["class", "output", "expressions", "partitioning", "params", "children"]

mutual

def ofJson? : Nat → Json → Option HostPlan
  | 0, _ => none
  | nesting + 1, json => do
    let fields ← json.fields? fieldNames
    let name ← fields.required? "class" Json.text?
    let output ← fields.withDefault? "output" [] (Column.listOfJson? nesting)
    let expressions ← fields.withDefault? "expressions" [] (HostExpr.listOfJson? nesting)
    let partitioning ←
      fields.withDefault? "partitioning" none (Json.optional? (HostExpr.ofJson? nesting))
    let params ← fields.withDefault? "params" .empty (Params.ofJson? nesting)
    let children ← fields.withDefault? "children" [] (listOfJson? nesting)
    some ⟨⟨name⟩, output, expressions, partitioning, params, children⟩

def listOfJson? : Nat → Json → Option (List HostPlan)
  | 0, _ => none
  | nesting + 1, json => json.listOf? (ofJson? nesting)

end

/-- The plan of a document, checked for blank classes. -/
def ofDocument (text : String) : Except PlacementError HostPlan :=
  match (Json.read? text).bind (ofJson? Json.nestingLimit) with
  | some plan => plan.validate.map fun _ => plan
  | none => .error .malformedPlan

end HostPlan

end GpuPlacement
