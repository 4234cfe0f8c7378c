import GpuPlacement.Device.Plan
import GpuPlacement.Host.Document
/-!
Placed plans as JSON values. The kind of an operator stands in front of its fields.
-/
namespace GpuPlacement

namespace GpuExpr

mutual

def toJson : GpuExpr → Json
  | ⟨name, type, nullable, params, children⟩ =>
    .objectOf [("name", some (.text name)), ("data_type", some type.toJson),
      ("nullable", some (.bool nullable)), ("params", params.toJsonUnlessEmpty),
      ("children", Json.arrayUnlessEmpty (toJsonAll children))]

def toJsonAll : List GpuExpr → List Json
  | [] => []
  | expr :: rest => expr.toJson :: toJsonAll rest

end

end GpuExpr

def GpuOperator.fields (operator : GpuOperator) : List (String × Option Json) :=
  [("name", some (.text operator.name)), ("replaces", some (.text operator.replaces.name)),
    ("output", some (.array (operator.output.map Column.toJson))),
    ("exprs", Json.arrayUnlessEmpty (operator.exprs.map GpuExpr.toJson)),
    ("partitioning", operator.partitioning.map GpuExpr.toJson),
    ("params", operator.params.toJsonUnlessEmpty)]

def GpuOperator.toJson (operator : GpuOperator) : Json :=
  .objectOf operator.fields

def HostOperator.fields (operator : HostOperator) : List (String × Option Json) :=
  [("class", some (.text operator.className.name)),
    ("output", some (.array (operator.output.map Column.toJson))),
    ("expressions", Json.arrayUnlessEmpty (operator.expressions.map HostExpr.toJson)),
    ("partitioning", operator.partitioning.map HostExpr.toJson),
    ("params", operator.params.toJsonUnlessEmpty)]

def PlacedOperator.toJson (operator : PlacedOperator) : Json :=
  let ofKind := fun (kind : String) (fields : List (String × Option Json)) =>
    Json.objectOf (("kind", some (.text kind)) :: fields)
  match operator with
  | .gpu operator => ofKind "gpu" operator.fields
  | .host operator => ofKind "host" operator.fields
  | .rowToColumnar targetBatchBytes =>
    ofKind "row_to_columnar" [("target_batch_bytes", some (.nat targetBatchBytes.toNat))]
  | .columnarToRow => ofKind "columnar_to_row" []

namespace PlacedNode

mutual

def toJson : PlacedNode → Json
  | ⟨operator, inputs⟩ =>
    .objectOf [("op", some operator.toJson), ("inputs", Json.arrayUnlessEmpty (toJsonAll inputs))]

def toJsonAll : List PlacedNode → List Json
  | [] => []
  | node :: rest => node.toJson :: toJsonAll rest

end

end PlacedNode

def PlacementStats.toJson (stats : PlacementStats) : Json :=
  .object [("gpu_nodes", .nat stats.gpuNodes), ("host_nodes", .nat stats.hostNodes),
    ("transitions", .nat stats.transitions)]

def PlacedPlan.toJson (plan : PlacedPlan) : Json :=
  .object [("root", plan.root.toJson), ("fingerprint", .nat plan.fingerprint.toNat),
    ("stats", plan.stats.toJson)]

end GpuPlacement
