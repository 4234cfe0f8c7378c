import GpuPlacement.Proofs.Schema
import GpuPlacement.Proofs.Signatures
import GpuPlacement.Proofs.Transition
/-!
Types on the device. Rules look at the types that an operator and its expressions produce, never at
those that an operator takes in, so only the columns that a device operator makes use of have types
that the device supports.
-/
namespace GpuPlacement

namespace TypeSignature

/-- A signature that has no families but those of another one. -/
def Within (signature other : TypeSignature) : Prop :=
  ∀ family, signature.has family = true → other.has family = true

instance (signature other : TypeSignature) : Decidable (signature.Within other) :=
  decidable_of_iff
    (∀ family ∈ TypeFamily.all, signature.has family = true → other.has family = true)
    ⟨fun h family => h family family.mem_all, fun h family _ => h family⟩

end TypeSignature

theorem RuleSpec.supports_outputs {Node : Type} [HostNode Node] {spec : RuleSpec} {node : Node}
    {signature : TypeSignature} (given : signature ∈ spec.output)
    (clear : spec.typeReasons node = []) :
    ∀ type ∈ HostNode.outputTypes node, signature.supports type = true := by
  have outputs := (List.append_eq_nil_iff.mp clear).2
  rw [Option.mem_def.mp given, List.map_eq_nil_iff, rejections, List.filterMap_eq_nil_iff]
    at outputs
  intro type member
  rw [TypeSignature.supports, outputs type member]
  rfl

namespace Builtin

/-- The names of partitionings on the device. -/
def partitioningNames : List String :=
  partitioningRules.map fun rule => rule.spec.className.gpuName

theorem operatorRule_output : ∀ rule ∈ operatorRules,
    ∃ signature ∈ rule.spec.output, signature.Within columnTypes := by
  decide +kernel

theorem evaluatedRule_output :
    ∀ rule ∈ leafRules ++ arithmeticRules ++ predicateRules ++ conversionRules ++ textRules
        ++ mathAndTimeRules ++ aggregateRules,
      ∃ signature ∈ rule.spec.output, signature.Within columnTypes := by
  decide +kernel

/-- Only partitionings may produce anything, as they produce no column. -/
theorem exprRule_output {rule : ExprRule} (member : rule ∈ exprRules)
    (evaluated : rule.spec.className.gpuName ∉ partitioningNames) :
    ∃ signature ∈ rule.spec.output, signature.Within columnTypes := by
  rcases List.mem_append.mp member with evaluates | partitions
  · exact evaluatedRule_output rule evaluates
  · exact absurd (List.mem_map_of_mem partitions) evaluated

end Builtin

theorem GpuOperator.Implements.output_supported {config : Config} {operator : GpuOperator}
    {plan : HostPlan} (h : operator.Implements config plan) :
    ∀ column ∈ operator.output, Builtin.columnTypes.supports column.type = true := by
  obtain ⟨rule, member, -, context, here, supports⟩ := h.supported
  obtain ⟨signature, given, within⟩ := Builtin.operatorRule_output rule member
  intro column produced
  have types := RuleSpec.supports_outputs given supports.types
  rw [here] at types
  rw [h.output] at produced
  exact TypeSignature.supports_mono within (types column.type (List.mem_map_of_mem produced))

/-- Every part of a converted expression has a supported type, partitionings apart. -/
theorem GpuExpr.StandsFor.type_supported {owner : Option HostPlan} {part : GpuExpr}
    {source : HostExpr} (h : part.StandsFor owner source)
    (evaluated : part.name ∉ Builtin.partitioningNames) :
    Builtin.columnTypes.supports part.type = true := by
  obtain ⟨rule, member, same, context, here, -, supports⟩ := h.accepted
  have named : rule.spec.className.gpuName ∉ Builtin.partitioningNames := by
    -- A folded cast goes by the name of the literal, so its rule is named by the source.
    rw [same]
    rcases h.shape with ⟨name, -⟩ | ⟨cast, -⟩
    · exact name ▸ evaluated
    · rw [cast]
      decide +kernel
  obtain ⟨signature, given, within⟩ := Builtin.exprRule_output member named
  have types := RuleSpec.supports_outputs given supports.types
  rw [here] at types
  rw [h.type]
  exact TypeSignature.supports_mono within (types source.type (List.mem_singleton_self _))

/-- A column that a device operator makes use of: it has a column of that name and type, too, or
refers to one somewhere in its expressions. -/
def GpuOperator.Uses (operator : GpuOperator) (column : Column) : Prop :=
  (∃ own ∈ operator.output, own.name = column.name ∧ own.type = column.type) ∨
    ∃ expr ∈ operator.allExpressions, ∃ part ∈ expr.subtrees,
      part.name = "GpuAttributeReference" ∧ part.params.text? "name" = some column.name ∧
        part.type = column.type

theorem GpuOperator.Implements.uses_supported {config : Config} {operator : GpuOperator}
    {plan : HostPlan} {column : Column} (h : operator.Implements config plan)
    (uses : operator.Uses column) : Builtin.columnTypes.supports column.type = true := by
  rcases uses with ⟨own, produced, -, same⟩ | ⟨expr, member, part, within, named, -, same⟩
  · rw [← same]
    exact h.output_supported own produced
  · obtain ⟨source, stands⟩ := h.parts expr member part within
    have evaluated : part.name ∉ Builtin.partitioningNames := by
      rw [named]
      decide +kernel
    rw [← same]
    exact stands.type_supported evaluated

namespace PlacedNode

/-- A device operator of a tree that takes a node as an input. -/
def Consumes (root : PlacedNode) (operator : GpuOperator) (node : PlacedNode) : Prop :=
  ∃ inputs, ⟨.gpu operator, inputs⟩ ∈ root.subtrees ∧ node ∈ inputs

/-- In a tree of rows a transition to batches stands between a device and a host operator. -/
theorem AllBridged.boundary {batchBytes target : UInt64} {root node : PlacedNode}
    (bridged : root.AllBridged batchBytes) (rows : root.isColumnar = false)
    (within : node ∈ root.subtrees) (loads : node.operator = .rowToColumnar target) :
    (∃ producer below, node.inputs = [⟨.host producer, below⟩]) ∧
      ∃ operator, root.Consumes operator node := by
  have columnar : node.isColumnar = true := by rw [isColumnar, loads, PlacedOperator.isColumnar]
  constructor
  · have top := bridged node within
    rcases node with ⟨operator, inputs⟩
    obtain rfl : operator = .rowToColumnar target := loads
    exact top.2
  · rcases exists_consumer within with rfl | ⟨consumer, below, takes⟩
    · cases columnar.symm.trans rows
    · have top := bridged consumer below
      rcases consumer with ⟨operator, inputs⟩
      cases operator with
      | gpu operator => exact ⟨operator, inputs, below, takes⟩
      | host operator => cases columnar.symm.trans (top node takes)
      | rowToColumnar batchBytes =>
          obtain ⟨-, producer, deeper, rfl⟩ := top
          cases List.mem_singleton.mp takes
          cases loads
      | columnarToRow =>
          obtain ⟨operator, deeper, rfl⟩ := top
          cases List.mem_singleton.mp takes
          cases loads

end PlacedNode

theorem bridged_of_place {config : Config} {plan : HostPlan} {placement : Placement}
    (placed : place Builtin.registry config plan = .ok placement) :
    placement.plan.root.isColumnar = false ∧
      placement.plan.root.AllBridged config.batchSizeBytes := by
  rcases place_ok_iff.mp placed with ⟨-, rfl⟩ | ⟨-, -, node, made, rfl⟩
  · exact (PlacedNode.operates_ofHostPlan plan).intoRows
  · exact made.operates.intoRows

/-- With the built-in rules everything that a device operator produces has a supported type, and so
have the columns that it uses of what the host sends to the device. -/
theorem place_usesSupportedColumns (config : Config) (plan : HostPlan) (placement : Placement)
    (placed : place Builtin.registry config plan = .ok placement) :
    let root := placement.plan.root
    (∀ node ∈ root.subtrees, ∀ operator, node.operator = .gpu operator →
      (∀ column ∈ operator.output, Builtin.columnTypes.supports column.type = true) ∧
      ∀ expr ∈ operator.allExpressions, ∀ part ∈ expr.subtrees,
        part.name ∉ Builtin.partitioningNames →
          Builtin.columnTypes.supports part.type = true) ∧
    ∀ node ∈ root.subtrees, ∀ target, node.operator = .rowToColumnar target →
      ∃ producer below, node.inputs = [⟨.host producer, below⟩] ∧
        (∃ consumer, root.Consumes consumer node) ∧
        ∀ consumer, root.Consumes consumer node → ∀ column ∈ producer.output,
          consumer.Uses column → Builtin.columnTypes.supports column.type = true := by
  intro root
  constructor
  · intro node within operator onGpu
    obtain ⟨source, -, implements⟩ := implements_of_place placed within onGpu
    refine ⟨implements.output_supported, fun expr member part inside => ?_⟩
    obtain ⟨host, stands⟩ := implements.parts expr member part inside
    exact stands.type_supported
  · intro node within target loads
    obtain ⟨rows, bridged⟩ := bridged_of_place placed
    obtain ⟨⟨producer, below, only⟩, consumed⟩ := bridged.boundary rows within loads
    refine ⟨producer, below, only, consumed, ?_⟩
    rintro consumer ⟨inputs, taken, -⟩ column - uses
    obtain ⟨source, -, implements⟩ := implements_of_place placed taken rfl
    exact implements.uses_supported uses

/-- A projection onto one column of what the host produces, beside a column of bytes. -/
def narrowedRange : HostPlan :=
  { (HostPlan.ofClass "ProjectExec").withOutput [.ofType "k" .int] with
    expressions := [HostExpr.column "k" .int]
    children := [(HostPlan.ofClass "RangeExec").withOutput
      [.ofType "k" .int, .ofType "payload" .binary]] }

theorem narrowedRange_tag :
    (tagPlan Builtin.registry .default narrowedRange).eligible = true ∧
      (tagPlan Builtin.registry .default narrowedRange).decision.noOp = false :=
  tagPlan_of_rule (List.forall_mem_singleton.mpr (ExprDecision.tag_keyColumn _).1)
    (by decide +kernel)

theorem place_narrowedRange :
    ∃ placement, place Builtin.registry .default narrowedRange = .ok placement ∧
      ∃ node ∈ placement.plan.root.subtrees, ∃ target producer below,
        node = ⟨.rowToColumnar target, [⟨.host producer, below⟩]⟩ ∧
          producer.output = [.ofType "k" .int, .ofType "payload" .binary] := by
  obtain ⟨placement, placed⟩ := exists_placement .default narrowedRange rfl
  obtain ⟨eligible, stays⟩ := narrowedRange_tag
  obtain ⟨operator, inputs, within, -, sent⟩ := sent_root_of_place rfl placed eligible stays
  obtain ⟨below, loaded⟩ := sent.unruledInput List.mem_cons_self
    (RuleTable.find?_ofList_eq_none (by decide +kernel))
  have inside := PlacedNode.mem_subtrees_trans
    (PlacedNode.mem_subtrees_of_input loaded (PlacedNode.mem_subtrees_self _)) within
  exact ⟨placement, placed, _, inside, _, _, below, rfl, rfl⟩

theorem place_usesSupportedColumns_narrowed :
    ∃ placement, place Builtin.registry .default narrowedRange = .ok placement ∧
      ∃ node ∈ placement.plan.root.subtrees, ∃ target producer below,
        node = ⟨.rowToColumnar target, [⟨.host producer, below⟩]⟩ ∧
          ∃ consumer, placement.plan.root.Consumes consumer node ∧
            ∀ column ∈ producer.output, consumer.Uses column →
              Builtin.columnTypes.supports column.type = true := by
  obtain ⟨placement, placed, node, within, target, producer, below, rfl, -⟩ := place_narrowedRange
  obtain ⟨_, _, only, ⟨consumer, takes⟩, supported⟩ :=
    (place_usesSupportedColumns .default narrowedRange placement placed).2 _ within target rfl
  cases only
  exact ⟨placement, placed, _, within, target, _, _, rfl, consumer, takes, supported consumer takes⟩

/-- Columns that nobody uses are sent to the device whatever their type. -/
theorem not_forall_place_supportedColumns :
    ¬ ∀ config plan placement, place Builtin.registry config plan = .ok placement →
      ∀ node ∈ placement.plan.root.subtrees, ∀ target, node.operator = .rowToColumnar target →
        ∀ input ∈ node.inputs, ∀ column ∈ input.columns,
          Builtin.columnTypes.supports column.type = true := by
  intro always
  obtain ⟨placement, placed, node, within, target, producer, below, rfl, columns⟩ :=
    place_narrowedRange
  have supported := always .default narrowedRange placement placed _ within target rfl _
    (List.mem_singleton_self _) (.ofType "payload" .binary) (by
      rw [PlacedNode.columns, columns]
      exact List.mem_cons_of_mem _ List.mem_cons_self)
  exact absurd supported (by decide)

end GpuPlacement
