import GpuPlacement.Proofs.Tree
/-!
Outlines of placed trees: what stands in the tree once the texts of a node run together. Operators
keep their kind and their inputs, expressions their arguments.
-/
namespace GpuPlacement

/-- Keys and values one after the other. -/
def paramText (params : Params) : String :=
  String.join (params.entries.map fun entry => entry.1 ++ entry.2.toText)

/-- The class of a host operator, its expressions in the host's language and its parameters. -/
def HostOperator.text (operator : HostOperator) : String :=
  operator.className.name ++ String.join (operator.allExpressions.map HostExpr.sql)
    ++ paramText operator.params

structure ExprOutline where
  text : String
  children : List ExprOutline

mutual

def GpuExpr.outline : GpuExpr → ExprOutline
  | ⟨name, type, _, params, children⟩ =>
    ⟨name ++ type.name ++ paramText params, outlinesOfExprs children⟩

def outlinesOfExprs : List GpuExpr → List ExprOutline
  | [] => []
  | expr :: rest => expr.outline :: outlinesOfExprs rest

end

inductive OperatorOutline where
  | gpu (exprs : List ExprOutline) (text : String)
  | host (text : String)
  | rowToColumnar (targetBatchBytes : UInt64)
  | columnarToRow

/-- Texts around expressions: what comes first runs into the first expression. -/
def OperatorOutline.around (first : String) (exprs : List ExprOutline) (last : String) :
    OperatorOutline :=
  match exprs with
  | [] => .gpu [] (first ++ last)
  | expr :: rest => .gpu (⟨first ++ expr.text, expr.children⟩ :: rest) last

namespace PlacedOperator

def outline : PlacedOperator → OperatorOutline
  | .gpu operator =>
    .around operator.name (operator.allExpressions.map GpuExpr.outline)
      (paramText operator.params)
  | .host operator => .host operator.text
  | .rowToColumnar targetBatchBytes => .rowToColumnar targetBatchBytes
  | .columnarToRow => .columnarToRow

end PlacedOperator

structure PlacedOutline where
  operator : OperatorOutline
  inputs : List PlacedOutline

mutual

def PlacedNode.outline : PlacedNode → PlacedOutline
  | ⟨operator, inputs⟩ => ⟨operator.outline, outlinesOfNodes inputs⟩

def outlinesOfNodes : List PlacedNode → List PlacedOutline
  | [] => []
  | node :: rest => node.outline :: outlinesOfNodes rest

end

theorem outlinesOfExprs_eq_map (exprs : List GpuExpr) :
    outlinesOfExprs exprs = exprs.map GpuExpr.outline :=
  eq_map_of_cons rfl (fun _ _ => rfl) exprs

theorem outlinesOfNodes_eq_map (nodes : List PlacedNode) :
    outlinesOfNodes nodes = nodes.map PlacedNode.outline :=
  eq_map_of_cons rfl (fun _ _ => rfl) nodes

/-- The outline with a text before its own. -/
def ExprOutline.behind (first : String) (expr : ExprOutline) : ExprOutline :=
  ⟨first ++ expr.text, expr.children⟩

theorem ExprOutline.behind_empty (expr : ExprOutline) : expr.behind "" = expr := by
  obtain ⟨text, children⟩ := expr
  rw [behind, String.empty_append]

namespace OperatorOutline

theorem around_cons (first : String) (expr : ExprOutline) (rest : List ExprOutline)
    (last : String) : around first (expr :: rest) last = .gpu (expr.behind first :: rest) last :=
  rfl

theorem around_empty (exprs : List ExprOutline) (last : String) :
    around "" exprs last = .gpu exprs last := by
  cases exprs with
  | nil => rw [around, String.empty_append]
  | cons expr rest => rw [around_cons, ExprOutline.behind_empty]

end OperatorOutline

/-! Texts and trees whose bytes cannot be taken for counts or for the starts of operators. -/

/-- The text has none of the first five control characters. -/
def Legible (text : String) : Prop :=
  ∀ character ∈ text.toList, 4 < character.toNat

instance (text : String) : Decidable (Legible text) :=
  List.decidableBAll (fun character : Char => 4 < character.toNat) text.toList

namespace Legible

theorem empty : Legible "" := by
  decide +kernel

theorem append {text other : String} (h : Legible text) (also : Legible other) :
    Legible (text ++ other) := by
  intro character member
  rw [String.toList_append] at member
  rcases List.mem_append.mp member with first | second
  · exact h character first
  · exact also character second

theorem join {texts : List String} (each : ∀ text ∈ texts, Legible text) :
    Legible (String.join texts) := by
  intro character member
  rw [String.toList_join] at member
  obtain ⟨text, among, inside⟩ := List.mem_flatMap.mp member
  exact each text among character inside

theorem repr (value : Nat) : Legible value.repr := by
  intro character member
  rw [Nat.toList_repr] at member
  have digit := Nat.isDigit_of_mem_toDigits (by decide) (by decide) member
  rw [Char.isDigit_iff_toNat] at digit
  have zero : '0'.toNat = 48 := rfl
  omega

theorem toString (value : Int) : Legible (ToString.toString value) := by
  cases value with
  | ofNat value => exact repr value
  | negSucc value =>
      have sign : Legible "-" := by decide +kernel
      exact sign.append (repr _)

mutual

theorem typeName (type : DataType) : Legible type.name := by
  cases type with
  | decimal precision scale =>
      have start : Legible "decimal(" := by decide +kernel
      have comma : Legible "," := by decide +kernel
      have stop : Legible ")" := by decide +kernel
      rw [DataType.name]
      exact (((start.append (repr precision)).append comma).append (toString scale)).append stop
  | array element =>
      have start : Legible "array<" := by decide +kernel
      have stop : Legible ">" := by decide +kernel
      rw [DataType.name]
      exact (start.append (typeName element)).append stop
  | map key value =>
      have start : Legible "map<" := by decide +kernel
      have comma : Legible "," := by decide +kernel
      have stop : Legible ">" := by decide +kernel
      rw [DataType.name]
      exact (((start.append (typeName key)).append comma).append (typeName value)).append stop
  | struct fields =>
      have start : Legible "struct<" := by decide +kernel
      have stop : Legible ">" := by decide +kernel
      rw [DataType.name]
      exact (start.append (fieldNames fields)).append stop
  | _ => decide +kernel

theorem fieldNames (fields : List DataType) : Legible (DataType.fieldNames fields) := by
  cases fields with
  | nil => exact empty
  | cons field rest =>
      cases rest with
      | nil =>
          rw [DataType.fieldNames]
          exact typeName field
      | cons next later =>
          have comma : Legible "," := by decide +kernel
          rw [DataType.fieldNames]
          · exact ((typeName field).append comma).append (fieldNames (next :: later))
          · exact List.cons_ne_nil next later

end

end Legible

theorem DataType.name_ne_empty (type : DataType) : type.name ≠ "" := by
  cases type with
  | decimal precision scale => simp [name]
  | array element => simp [name]
  | map key value => simp [name]
  | struct fields => simp [name]
  | _ => decide +kernel

def LegibleParams (params : Params) : Prop :=
  ∀ entry ∈ params.entries, Legible entry.1 ∧ Legible entry.2.toText

instance (params : Params) : Decidable (LegibleParams params) :=
  inferInstanceAs
    (Decidable (∀ entry ∈ params.entries, Legible entry.1 ∧ Legible entry.2.toText))

theorem LegibleParams.text {params : Params} (h : LegibleParams params) :
    Legible (paramText params) := by
  apply Legible.join
  rw [List.forall_mem_map]
  intro entry member
  obtain ⟨key, value⟩ := h entry member
  exact key.append value

/-- Every name and parameter in the expression is legible, and arguments are counted in half a
word. -/
def GpuExpr.Readable (expr : GpuExpr) : Prop :=
  ∀ part ∈ expr.subtrees,
    Legible part.name ∧ LegibleParams part.params ∧ part.children.length < UInt32.size

/-- Every text of the operator is legible; of a target size the highest byte is zero. -/
def PlacedOperator.Readable : PlacedOperator → Prop
  | .gpu operator =>
    Legible operator.name ∧ LegibleParams operator.params ∧
      ∀ expr ∈ operator.allExpressions, expr.Readable
  | .host operator =>
    Legible operator.className.name ∧ LegibleParams operator.params ∧
      ∀ expr ∈ operator.allExpressions, Legible expr.sql
  | .rowToColumnar targetBatchBytes => targetBatchBytes >>> 56 = 0
  | .columnarToRow => True

def PlacedNode.Readable (node : PlacedNode) : Prop :=
  ∀ part ∈ node.subtrees, part.operator.Readable ∧ part.inputs.length < UInt32.size

instance (expr : GpuExpr) : Decidable expr.Readable :=
  inferInstanceAs (Decidable (∀ part ∈ expr.subtrees,
    Legible part.name ∧ LegibleParams part.params ∧ part.children.length < UInt32.size))

instance : (operator : PlacedOperator) → Decidable operator.Readable
  | .gpu operator => inferInstanceAs (Decidable (Legible operator.name ∧
      LegibleParams operator.params ∧ ∀ expr ∈ operator.allExpressions, expr.Readable))
  | .host operator => inferInstanceAs (Decidable (Legible operator.className.name ∧
      LegibleParams operator.params ∧ ∀ expr ∈ operator.allExpressions, Legible expr.sql))
  | .rowToColumnar targetBatchBytes =>
    inferInstanceAs (Decidable (targetBatchBytes >>> 56 = 0))
  | .columnarToRow => inferInstanceAs (Decidable True)

instance (node : PlacedNode) : Decidable node.Readable :=
  inferInstanceAs
    (Decidable (∀ part ∈ node.subtrees, part.operator.Readable ∧ part.inputs.length < UInt32.size))

namespace GpuExpr.Readable

variable {name : String} {type : DataType} {nullable : Bool} {params : Params}
  {children : List GpuExpr}

theorem child (h : Readable ⟨name, type, nullable, params, children⟩) :
    ∀ child ∈ children, child.Readable :=
  fun child member part within => h part (mem_subtrees_iff.mpr (.inr ⟨child, member, within⟩))

theorem arity (h : Readable ⟨name, type, nullable, params, children⟩) :
    children.length < UInt32.size :=
  (h _ (mem_subtrees_iff.mpr (.inl rfl))).2.2

theorem text (h : Readable ⟨name, type, nullable, params, children⟩) :
    Legible (name ++ type.name ++ paramText params) := by
  obtain ⟨own, given, -⟩ := h _ (mem_subtrees_iff.mpr (.inl rfl))
  exact (Legible.append own (Legible.typeName type)).append given.text

end GpuExpr.Readable

theorem PlacedOperator.Readable.hostText {operator : HostOperator}
    (h : (PlacedOperator.host operator).Readable) : Legible operator.text := by
  obtain ⟨name, params, exprs⟩ := h
  have sql : ∀ text ∈ operator.allExpressions.map HostExpr.sql, Legible text :=
    List.forall_mem_map.mpr exprs
  exact (name.append (Legible.join sql)).append params.text

namespace PlacedNode.Readable

variable {top : PlacedOperator} {inputs : List PlacedNode}

theorem input (h : Readable ⟨top, inputs⟩) : ∀ input ∈ inputs, input.Readable :=
  fun _ member part within => h part (mem_subtrees_of_input member within)

theorem operator (h : Readable ⟨top, inputs⟩) : top.Readable :=
  (h _ (mem_subtrees_self _)).1

theorem arity (h : Readable ⟨top, inputs⟩) : inputs.length < UInt32.size :=
  (h _ (mem_subtrees_self _)).2

end PlacedNode.Readable

end GpuPlacement
