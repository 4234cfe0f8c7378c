import GpuPlacement.Host.Plan
/-!
Expressions and operators that run on the device, and operators that stay on the host.
-/
namespace GpuPlacement

structure GpuExpr where
  name : String
  type : DataType
  nullable : Bool
  params : Params
  children : List GpuExpr

/-- The device's name for a host class. -/
def ClassName.gpuName (className : ClassName) : String :=
  "Gpu" ++ className.short

namespace GpuExpr

/-- The default conversion: same type and parameters; a column or alias name becomes a
parameter. -/
def ofHost (host : HostExpr) (children : List GpuExpr) : GpuExpr where
  name := host.className.gpuName
  type := host.type
  nullable := host.nullable
  params :=
    match host.name with
    | some name => host.params.insert "name" (.text name)
    | none => host.params
  children := children

def literal (value : Scalar) : GpuExpr where
  name := "GpuLiteral"
  type := value.type
  nullable := value.isNull
  params := Dict.empty.insert "value" (.scalar value)
  children := []

/-- The value of a literal. -/
def literalValue? (expr : GpuExpr) : Option Scalar :=
  if expr.name = "GpuLiteral" then expr.params.scalar? "value" else none

/-- The text of an expression without children to show: a literal's value or a column's name. -/
def leafText? (expr : GpuExpr) : Option String :=
  match expr.literalValue? with
  | some value => some value.text
  | none => if expr.name = "GpuAttributeReference" then expr.params.text? "name" else none

mutual

def toText : GpuExpr → String
  | ⟨name, type, nullable, params, children⟩ =>
    match leafText? ⟨name, type, nullable, params, children⟩ with
    | some text => text
    | none => name ++ "(" ++ ", ".intercalate (textOfAll children) ++ ")"

def textOfAll : List GpuExpr → List String
  | [] => []
  | expr :: rest => expr.toText :: textOfAll rest

end

end GpuExpr

/-- An operator on the device. -/
structure GpuOperator where
  name : String
  /-- The host class that the operator replaces. -/
  replaces : ClassName
  output : List Column
  /-- The converted expressions, in the host operator's order. -/
  exprs : List GpuExpr
  partitioning : Option GpuExpr
  params : Params

namespace GpuOperator

/-- The default conversion. The last expression is the partitioning when the host operator has
one. -/
def ofHost (host : HostPlan) (exprs : List GpuExpr) : GpuOperator where
  name := host.className.gpuName
  replaces := host.className
  output := host.output
  exprs := if host.partitioning.isSome then exprs.dropLast else exprs
  partitioning := if host.partitioning.isSome then exprs.getLast? else none
  params := host.params

def withParam (operator : GpuOperator) (key : String) (value : ParamValue) : GpuOperator :=
  { operator with params := operator.params.insert key value }

/-- The expressions and, behind them, the partitioning. -/
def allExpressions (operator : GpuOperator) : List GpuExpr :=
  operator.exprs ++ operator.partitioning.toList

end GpuOperator

/-- An operator left on the host. -/
structure HostOperator where
  className : ClassName
  output : List Column
  expressions : List HostExpr
  partitioning : Option HostExpr
  params : Params

namespace HostOperator

/-- A plan's operator without its inputs. -/
def ofPlan (plan : HostPlan) : HostOperator :=
  ⟨plan.className, plan.output, plan.expressions, plan.partitioning, plan.params⟩

def allExpressions (operator : HostOperator) : List HostExpr :=
  operator.expressions ++ operator.partitioning.toList

end HostOperator

end GpuPlacement
