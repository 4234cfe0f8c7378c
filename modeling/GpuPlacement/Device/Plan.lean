import GpuPlacement.Data.Hash64
import GpuPlacement.Device.Expr
/-!
Placed plans: host and device operators with a transition wherever rows become batches or batches
rows, their text, their counts and their fingerprint.
-/
namespace GpuPlacement

inductive PlacedOperator where
  | gpu (operator : GpuOperator)
  | host (operator : HostOperator)
  /-- Turns host rows into device batches of a target size. -/
  | rowToColumnar (targetBatchBytes : UInt64)
  /-- Turns device batches into host rows. -/
  | columnarToRow

structure PlacedNode where
  operator : PlacedOperator
  inputs : List PlacedNode

namespace PlacedOperator

/-- Whether the operator produces device batches. -/
def isColumnar : PlacedOperator → Bool
  | .gpu _ | .rowToColumnar _ => true
  | .host _ | .columnarToRow => false

def label : PlacedOperator → String
  | .gpu operator => operator.name
  | .host operator => operator.className.short
  | .rowToColumnar _ => "RowToColumnar"
  | .columnarToRow => "ColumnarToRow"

def bracketed (texts : List String) : String :=
  " [" ++ ", ".intercalate texts ++ "]"

/-- What stands behind the label in a tree. A host operator's partitioning is not shown. -/
def details : PlacedOperator → String
  | .gpu operator =>
    if operator.allExpressions.isEmpty then ""
    else bracketed (operator.allExpressions.map GpuExpr.toText)
  | .host operator =>
    if operator.expressions.isEmpty then "" else bracketed (operator.expressions.map HostExpr.sql)
  | .rowToColumnar targetBatchBytes => s!" target={targetBatchBytes.toNat}"
  | .columnarToRow => ""

end PlacedOperator

/-- Two blanks for each level of a tree. -/
def indentation (depth : Nat) : String :=
  String.ofList (List.replicate (2 * depth) ' ')

namespace PlacedNode

mutual

/-- A host plan without any replacement. -/
def ofHostPlan : HostPlan → PlacedNode
  | ⟨className, output, expressions, partitioning, params, children⟩ =>
    ⟨.host ⟨className, output, expressions, partitioning, params⟩, ofHostPlans children⟩

def ofHostPlans : List HostPlan → List PlacedNode
  | [] => []
  | plan :: rest => ofHostPlan plan :: ofHostPlans rest

end

def isColumnar (node : PlacedNode) : Bool :=
  node.operator.isColumnar

/-- The node as a producer of batches, behind a transition where it produces rows. -/
def intoColumnar (targetBatchBytes : UInt64) (node : PlacedNode) : PlacedNode :=
  if node.isColumnar then node else ⟨.rowToColumnar targetBatchBytes, [node]⟩

/-- The node as a producer of rows, behind a transition where it produces batches. -/
def intoRows (node : PlacedNode) : PlacedNode :=
  if node.isColumnar then ⟨.columnarToRow, [node]⟩ else node

def label (node : PlacedNode) : String :=
  node.operator.label

mutual

/-- The lines of a tree, one for each node. -/
def linesAt (depth : Nat) : PlacedNode → List String
  | ⟨operator, inputs⟩ =>
    (indentation depth ++ operator.label ++ operator.details) :: linesOfAll (depth + 1) inputs

def linesOfAll (depth : Nat) : List PlacedNode → List String
  | [] => []
  | node :: rest => node.linesAt depth ++ linesOfAll depth rest

end

/-- The text of a tree; every line ends in a line feed. -/
def treeText (node : PlacedNode) : String :=
  String.join ((node.linesAt 0).map (· ++ "\n"))

end PlacedNode

/-- How many nodes of each kind a placed plan has. -/
structure PlacementStats where
  gpuNodes : Nat
  hostNodes : Nat
  transitions : Nat
  deriving DecidableEq

namespace PlacementStats

def zero : PlacementStats := ⟨0, 0, 0⟩

def add (stats other : PlacementStats) : PlacementStats :=
  ⟨stats.gpuNodes + other.gpuNodes, stats.hostNodes + other.hostNodes,
    stats.transitions + other.transitions⟩

def ofOperator : PlacedOperator → PlacementStats
  | .gpu _ => ⟨1, 0, 0⟩
  | .host _ => ⟨0, 1, 0⟩
  | .rowToColumnar _ | .columnarToRow => ⟨0, 0, 1⟩

end PlacementStats

mutual

def PlacedNode.stats : PlacedNode → PlacementStats
  | ⟨operator, inputs⟩ => (PlacementStats.ofOperator operator).add (statsOfAll inputs)

def statsOfAll : List PlacedNode → PlacementStats
  | [] => .zero
  | node :: rest => node.stats.add (statsOfAll rest)

end

/-! The bytes that identify a plan. Texts stand one after the other without marks between them. -/

namespace Fingerprint

def textBytes (text : String) : List UInt8 :=
  text.toUTF8.toList

/-- A number in eight bytes, the lowest one first. -/
def wordBytes (word : UInt64) : List UInt8 :=
  (List.range 8).map fun place => (word >>> (8 * UInt64.ofNat place)).toUInt8

def countBytes (count : Nat) : List UInt8 :=
  wordBytes (UInt64.ofNat count)

def paramBytes (params : Params) : List UInt8 :=
  params.entries.flatMap fun entry => textBytes entry.1 ++ textBytes entry.2.toText

mutual

def exprBytes : GpuExpr → List UInt8
  | ⟨name, type, _, params, children⟩ =>
    textBytes name ++ textBytes type.name ++ paramBytes params ++ countBytes children.length
      ++ allExprBytes children

def allExprBytes : List GpuExpr → List UInt8
  | [] => []
  | expr :: rest => exprBytes expr ++ allExprBytes rest

end

def operatorBytes : PlacedOperator → List UInt8
  | .gpu operator =>
    1 :: textBytes operator.name ++ allExprBytes operator.allExpressions
      ++ paramBytes operator.params
  | .host operator =>
    2 :: textBytes operator.className.name
      ++ operator.allExpressions.flatMap (fun expr => textBytes expr.sql)
      ++ paramBytes operator.params
  | .rowToColumnar targetBatchBytes => 3 :: wordBytes targetBatchBytes
  | .columnarToRow => [4]

mutual

def nodeBytes : PlacedNode → List UInt8
  | ⟨operator, inputs⟩ =>
    operatorBytes operator ++ countBytes inputs.length ++ allNodeBytes inputs

def allNodeBytes : List PlacedNode → List UInt8
  | [] => []
  | node :: rest => nodeBytes node ++ allNodeBytes rest

end

def seed : UInt64 := 0x616363656c706c6e

def ofNode (node : PlacedNode) : UInt64 :=
  Hash64.hash seed (nodeBytes node)

/-- Sixteen hexadecimal digits. -/
def text (fingerprint : UInt64) : String :=
  let digits := Nat.toDigits 16 fingerprint.toNat
  String.ofList (List.replicate (16 - digits.length) '0' ++ digits)

end Fingerprint

/-- A finished plan; its root produces rows. -/
structure PlacedPlan where
  root : PlacedNode
  fingerprint : UInt64
  stats : PlacementStats

namespace PlacedPlan

/-- Finishes a tree with a transition to rows where it ends in batches. -/
def ofNode (node : PlacedNode) : PlacedPlan :=
  let root := node.intoRows
  ⟨root, Fingerprint.ofNode root, root.stats⟩

/-- A plan left on the host altogether. -/
def hostOnly (plan : HostPlan) : PlacedPlan :=
  ofNode (.ofHostPlan plan)

def usesGpu (plan : PlacedPlan) : Bool :=
  decide (0 < plan.stats.gpuNodes)

end PlacedPlan

end GpuPlacement
