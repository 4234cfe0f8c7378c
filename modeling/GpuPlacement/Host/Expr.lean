import GpuPlacement.Data.Dict
import GpuPlacement.Host.ClassName
import GpuPlacement.Scalar
import GpuPlacement.Text.Blank
/-!
Expressions of host plans, their parameters, and their text in reports.
-/
namespace GpuPlacement

/-- A parameter of a host node. -/
inductive ParamValue where
  | bool (value : Bool)
  | int (value : Int64)
  | float (value : Binary64)
  | text (value : String)
  | type (value : DataType)
  | scalar (value : Scalar)
  | list (items : List String)
  deriving DecidableEq

namespace ParamValue

/-- The text of a parameter in fingerprints and descriptions. -/
def toText : ParamValue → String
  | .bool value => if value then "true" else "false"
  | .int value => toString value.toInt
  | .float value => value.text .report
  | .text value => value
  | .type value => value.name
  | .scalar value => value.text
  | .list items => "[" ++ ", ".intercalate items ++ "]"

end ParamValue

abbrev Params := Dict ParamValue

namespace Params

def bool? (params : Params) (key : String) : Option Bool :=
  match params.get? key with
  | some (.bool value) => some value
  | _ => none

def int? (params : Params) (key : String) : Option Int64 :=
  match params.get? key with
  | some (.int value) => some value
  | _ => none

def text? (params : Params) (key : String) : Option String :=
  match params.get? key with
  | some (.text value) => some value
  | _ => none

def scalar? (params : Params) (key : String) : Option Scalar :=
  match params.get? key with
  | some (.scalar value) => some value
  | _ => none

end Params

structure HostExpr where
  className : ClassName
  type : DataType
  nullable : Bool
  /-- The name of a column or an alias. -/
  name : Option String
  params : Params
  children : List HostExpr

namespace HostExpr

/-- An expression of a class, without a name or parameters. -/
def call (name : String) (type : DataType) (children : List HostExpr) : HostExpr :=
  ⟨.expression name, type, true, none, .empty, children⟩

def withParam (expr : HostExpr) (key : String) (value : ParamValue) : HostExpr :=
  { expr with params := expr.params.insert key value }

def notNull (expr : HostExpr) : HostExpr :=
  { expr with nullable := false }

def literal (value : Scalar) : HostExpr :=
  { call "Literal" value.type [] with nullable := value.isNull }.withParam "value" (.scalar value)

/-- A reference to an input column. -/
def column (name : String) (type : DataType) : HostExpr :=
  { call "AttributeReference" type [] with name := some name }

def named (child : HostExpr) (name : String) : HostExpr :=
  { call "Alias" child.type [child] with name := some name }

def cast (child : HostExpr) (target : DataType) : HostExpr :=
  call "Cast" target [child]

def sortOrder (child : HostExpr) (ascending : Bool) : HostExpr :=
  (call "SortOrder" child.type [child]).withParam "ascending" (.bool ascending)

def aggregate (function : HostExpr) : HostExpr :=
  call "AggregateExpression" function.type [function]

/-- The value of a literal. -/
def literalValue? (expr : HostExpr) : Option Scalar :=
  if expr.className.short = "Literal" then expr.params.scalar? "value" else none

mutual

/-- The expression as compact text in the manner of SQL. -/
def sql : HostExpr → String
  | ⟨className, type, nullable, name, params, children⟩ =>
    let short := className.short
    if short = "Literal" then
      match literalValue? ⟨className, type, nullable, name, params, children⟩ with
      | some value => value.text
      | none => "?"
    else if short = "AttributeReference" then name.getD "?"
    else if short = "Alias" then s!"{sqlOfFirst children} AS " ++ name.getD "?"
    else if short = "Cast" then s!"cast({sqlOfFirst children} as {type.name})"
    else lowerAscii short ++ "(" ++ ", ".intercalate (sqlOfAll children) ++ ")"

def sqlOfFirst : List HostExpr → String
  | [] => ""
  | expr :: _ => expr.sql

def sqlOfAll : List HostExpr → List String
  | [] => []
  | expr :: rest => expr.sql :: sqlOfAll rest

end

end HostExpr

end GpuPlacement
