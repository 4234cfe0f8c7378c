import GpuPlacement.Error
import GpuPlacement.Host.Expr
import GpuPlacement.Text.Blank
/-!
Physical plans of the host engine, and the check that every node names its class.
-/
namespace GpuPlacement

/-- An output column of an operator. -/
structure Column where
  name : String
  type : DataType
  nullable : Bool
  deriving DecidableEq

def Column.ofType (name : String) (type : DataType) : Column :=
  ⟨name, type, true⟩

structure HostPlan where
  className : ClassName
  output : List Column
  /-- The expressions that the operator evaluates, in its own order. -/
  expressions : List HostExpr
  /-- The output partitioning of an exchange. -/
  partitioning : Option HostExpr
  params : Params
  children : List HostPlan

namespace HostPlan

/-- An operator of a class, without inputs. -/
def ofClass (name : String) : HostPlan :=
  ⟨.operator name, [], [], none, .empty, []⟩

def withOutput (plan : HostPlan) (output : List Column) : HostPlan :=
  { plan with output }

def withParam (plan : HostPlan) (key : String) (value : ParamValue) : HostPlan :=
  { plan with params := plan.params.insert key value }

/-- A scan of files of a format. -/
def scan (format : String) (output : List Column) : HostPlan :=
  ((ofClass "FileSourceScanExec").withOutput output).withParam "format" (.text format)

/-- The expressions and, behind them, the partitioning. -/
def allExpressions (plan : HostPlan) : List HostExpr :=
  plan.expressions ++ plan.partitioning.toList

/-- The names of the output columns, or nothing when there are none. -/
def describe (plan : HostPlan) : String :=
  if plan.output.isEmpty then ""
  else "[" ++ ", ".intercalate (plan.output.map (·.name)) ++ "]"

end HostPlan

/-- Whether a class has no name but white space. -/
def ClassName.isBlank (className : ClassName) : Bool :=
  className.name.toList.all GpuPlacement.isBlank

mutual

/-- The first blank class of an expression tree. -/
def HostExpr.fault? : HostExpr → Option PlanFault
  | ⟨className, _, _, _, _, children⟩ =>
    if className.isBlank then some .blankExpressionClass else faultOfExprs? children

def faultOfExprs? : List HostExpr → Option PlanFault
  | [] => none
  | expr :: rest =>
    match expr.fault? with
    | some fault => some fault
    | none => faultOfExprs? rest

end

mutual

/-- The first blank class of a plan: the operator's own, then those of its expressions and its
partitioning, then those of its inputs. -/
def HostPlan.fault? : HostPlan → Option PlanFault
  | ⟨className, _, expressions, partitioning, _, children⟩ =>
    if className.isBlank then some .blankOperatorClass
    else
      match faultOfExprs? (expressions ++ partitioning.toList) with
      | some fault => some fault
      | none => faultOfPlans? children

def faultOfPlans? : List HostPlan → Option PlanFault
  | [] => none
  | plan :: rest =>
    match plan.fault? with
    | some fault => some fault
    | none => faultOfPlans? rest

end

/-- Refuses plans with a blank class anywhere. -/
def HostPlan.validate (plan : HostPlan) : Except PlacementError Unit :=
  match plan.fault? with
  | some fault => .error (.invalidPlan fault)
  | none => .ok ()

end GpuPlacement
