import GpuPlacement.Proofs.Failures
import GpuPlacement.Proofs.Reported
/-!
Traversals of decision trees. Reports, counts and walks go through a tree each on its own. All of
them follow one listing of the host tree: a node, its expressions with their arguments, then its
inputs.
-/
namespace GpuPlacement

namespace HostPart

def short : HostPart → String
  | .operator plan => plan.className.short
  | .expr source => source.className.short

/-- The text of the node in reports. -/
def describe : HostPart → String
  | .operator plan => plan.describe
  | .expr source => source.sql

end HostPart

/-- The category of a node, or that its class has no rule. -/
def Decision.label {Node Op : Type} (decision : Decision Node Op) : String :=
  if decision.rule.isSome then decision.kind.label else "NOT_FOUND"

/-- What is known about a node of either kind. -/
inductive NodeDecision where
  | operator (decision : Decision HostPlan GpuOperator)
  | expr (decision : Decision HostExpr GpuExpr)

namespace NodeDecision

def part : NodeDecision → HostPart
  | .operator decision => .operator decision.node
  | .expr decision => .expr decision.node

def label : NodeDecision → String
  | .operator decision => decision.label
  | .expr decision => decision.label

def reasons : NodeDecision → List String
  | .operator decision => decision.reasons
  | .expr decision => decision.reasons

def operator? : NodeDecision → Option (Decision HostPlan GpuOperator)
  | .operator decision => some decision
  | .expr _ => none

def expr? : NodeDecision → Option (Decision HostExpr GpuExpr)
  | .operator _ => none
  | .expr decision => some decision

end NodeDecision

namespace HostExpr

mutual

/-- The nodes of an expression with their depths, parents before arguments. -/
def listed (depth : Nat) : HostExpr → List (Nat × HostPart)
  | ⟨className, type, nullable, name, params, children⟩ =>
    (depth, .expr ⟨className, type, nullable, name, params, children⟩)
      :: listedArguments (depth + 1) children

def listedArguments (depth : Nat) : List HostExpr → List (Nat × HostPart)
  | [] => []
  | expr :: rest => expr.listed depth ++ listedArguments depth rest

end

theorem listed_eq (depth : Nat) (expr : HostExpr) :
    expr.listed depth = (depth, .expr expr) :: expr.children.flatMap (listed (depth + 1)) := by
  have arguments (exprs : List HostExpr) :
      listedArguments (depth + 1) exprs = exprs.flatMap (listed (depth + 1)) :=
    eq_flatMap_of_cons rfl (fun _ _ => rfl) exprs
  cases expr with
  | mk className type nullable name params children => rw [listed, arguments]

end HostExpr

namespace HostPlan

mutual

/-- The nodes of a plan with their depths: an operator, its expressions and behind them its
partitioning, each with its arguments, then its inputs. -/
def listed (depth : Nat) : HostPlan → List (Nat × HostPart)
  | ⟨className, output, expressions, partitioning, params, children⟩ =>
    (depth, .operator ⟨className, output, expressions, partitioning, params, children⟩)
      :: ((expressions ++ partitioning.toList).flatMap (HostExpr.listed (depth + 1))
        ++ listedInputs (depth + 1) children)

def listedInputs (depth : Nat) : List HostPlan → List (Nat × HostPart)
  | [] => []
  | plan :: rest => plan.listed depth ++ listedInputs depth rest

end

theorem listed_eq (depth : Nat) (plan : HostPlan) :
    plan.listed depth = (depth, .operator plan) ::
      (plan.allExpressions.flatMap (HostExpr.listed (depth + 1))
        ++ plan.children.flatMap (listed (depth + 1))) := by
  have inputs (plans : List HostPlan) :
      listedInputs (depth + 1) plans = plans.flatMap (listed (depth + 1)) :=
    eq_flatMap_of_cons rfl (fun _ _ => rfl) plans
  cases plan with
  | mk className output expressions partitioning params children =>
      rw [listed, inputs, allExpressions]

example :
    let partitioning := HostExpr.call "HashPartitioning" .int [.column "k" .int]
    let plan := { HostPlan.ofClass "ShuffleExchangeExec" with
      partitioning := some partitioning, children := [.ofClass "RangeExec"] }
    (plan.listed 0).map (fun place => (place.1, place.2.short)) =
      [(0, "ShuffleExchangeExec"), (1, "HashPartitioning"), (2, "AttributeReference"),
        (1, "RangeExec")] := by
  decide +kernel

end HostPlan

namespace ExprDecision

mutual

def listed (depth : Nat) : ExprDecision → List (Nat × NodeDecision)
  | ⟨decision, children⟩ => (depth, .expr decision) :: listedArguments (depth + 1) children

def listedArguments (depth : Nat) : List ExprDecision → List (Nat × NodeDecision)
  | [] => []
  | tree :: rest => tree.listed depth ++ listedArguments depth rest

end

theorem listed_eq (depth : Nat) (tree : ExprDecision) :
    tree.listed depth =
      (depth, .expr tree.decision) :: tree.children.flatMap (listed (depth + 1)) := by
  have arguments (trees : List ExprDecision) :
      listedArguments (depth + 1) trees = trees.flatMap (listed (depth + 1)) :=
    eq_flatMap_of_cons rfl (fun _ _ => rfl) trees
  cases tree with
  | mk decision children => rw [listed, arguments]

end ExprDecision

namespace PlanDecision

mutual

def listed (depth : Nat) : PlanDecision → List (Nat × NodeDecision)
  | ⟨decision, exprs, children⟩ =>
    (depth, .operator decision)
      :: (exprs.flatMap (ExprDecision.listed (depth + 1)) ++ listedInputs (depth + 1) children)

def listedInputs (depth : Nat) : List PlanDecision → List (Nat × NodeDecision)
  | [] => []
  | tree :: rest => tree.listed depth ++ listedInputs depth rest

end

theorem listed_eq (depth : Nat) (tree : PlanDecision) :
    tree.listed depth = (depth, .operator tree.decision) ::
      (tree.exprs.flatMap (ExprDecision.listed (depth + 1))
        ++ tree.children.flatMap (listed (depth + 1))) := by
  have inputs (trees : List PlanDecision) :
      listedInputs (depth + 1) trees = trees.flatMap (listed (depth + 1)) :=
    eq_flatMap_of_cons rfl (fun _ _ => rfl) trees
  cases tree with
  | mk decision exprs children => rw [listed, inputs]

end PlanDecision

/-! Decision trees list the nodes of their host trees, whatever has been done to them. -/

namespace ExprDecision

variable {registry : Registry}

/-- The host nodes of a tree with their depths. -/
def parts (depth : Nat) (tree : ExprDecision) : List (Nat × HostPart) :=
  (tree.listed depth).map fun place => (place.1, place.2.part)

theorem parts_eq (depth : Nat) (tree : ExprDecision) :
    tree.parts depth =
      (depth, .expr tree.decision.node) :: tree.children.flatMap (parts (depth + 1)) := by
  rw [parts, listed_eq, List.map_cons, List.map_flatMap]
  rfl

theorem parts_ofExprAt (depth : Nat) (kind : RuleKind) (parent : Option HostExpr)
    (owner : Option HostPlan) (expr : HostExpr) :
    (ofExprAt registry kind parent owner expr).parts depth = expr.listed depth := by
  induction expr generalizing depth kind parent with
  | node className type nullable name params children ih =>
      rw [parts_eq, HostExpr.listed_eq, ofExprAt_node, ofExprAt_children, List.flatMap_map]
      exact congrArg (_ :: ·) (List.flatMap_congr fun child member => ih child member ..)

/-- What leaves the nodes of a tree in their places does not change what the tree lists. -/
theorem parts_of_nodewise {change : ExprDecision → ExprDecision}
    (node : ∀ tree, (change tree).decision.node = tree.decision.node)
    (children : ∀ tree, (change tree).children = tree.children.map change) (depth : Nat)
    (tree : ExprDecision) : (change tree).parts depth = tree.parts depth := by
  induction tree generalizing depth with
  | node decision arguments ih =>
      rw [parts_eq, node, children, List.flatMap_map, parts_eq]
      exact congrArg (_ :: ·) (List.flatMap_congr fun child member => ih child member _)

theorem parts_tag (config : Config) (depth : Nat) (tree : ExprDecision) :
    (tree.tag registry config).parts depth = tree.parts depth :=
  parts_of_nodewise (tag_node registry config) (tag_children registry config) depth tree

theorem parts_unconverted (depth : Nat) (tree : ExprDecision) :
    tree.unconverted.parts depth = tree.parts depth := by
  refine parts_of_nodewise ?_ ?_ depth tree
  all_goals
    rintro ⟨decision, children⟩
    rw [unconverted_eq]
  rfl

theorem parts_run (steps : List (Step Config)) (depth : Nat) (tree : ExprDecision) :
    (tree.run registry steps).parts depth = tree.parts depth := by
  induction steps generalizing tree with
  | nil => rfl
  | cons next rest ih =>
      rw [run, List.foldl_cons, ← run, ih]
      cases next with
      | tag config => exact parts_tag config depth tree
      | reject reason => rw [parts_eq, parts_eq]; rfl
      | convert config =>
          rw [step, ← parts_unconverted, convert_unconverted, parts_unconverted]

end ExprDecision

namespace PlanDecision

variable {registry : Registry}

def parts (depth : Nat) (tree : PlanDecision) : List (Nat × HostPart) :=
  (tree.listed depth).map fun place => (place.1, place.2.part)

theorem parts_eq (depth : Nat) (tree : PlanDecision) :
    tree.parts depth = (depth, .operator tree.decision.node) ::
      (tree.exprs.flatMap (ExprDecision.parts (depth + 1))
        ++ tree.children.flatMap (parts (depth + 1))) := by
  rw [parts, listed_eq, List.map_cons, List.map_append, List.map_flatMap, List.map_flatMap]
  rfl

theorem parts_ofExpressions (depth : Nat) (plan : HostPlan) :
    (ofExpressions registry plan).flatMap (ExprDecision.parts depth) =
      plan.allExpressions.flatMap (HostExpr.listed depth) := by
  rw [ofExpressions, List.flatMap_append, List.flatMap_map, List.flatMap_map,
    HostPlan.allExpressions, List.flatMap_append]
  simp only [ExprDecision.parts_ofExprAt]

theorem parts_ofPlanBelow (depth : Nat) (parent : Option HostPlan) (plan : HostPlan) :
    (ofPlanBelow registry parent plan).parts depth = plan.listed depth := by
  induction plan generalizing depth parent with
  | node className output expressions partitioning params children ih =>
      rw [parts_eq, HostPlan.listed_eq, ofPlanBelow_node, ofPlanBelow_exprs, ofPlanBelow_children,
        parts_ofExpressions, List.flatMap_map]
      exact congrArg (fun below => _ :: (_ ++ below))
        (List.flatMap_congr fun child member => ih child member ..)

theorem parts_of_nodewise {change : PlanDecision → PlanDecision}
    {changeExpr : ExprDecision → ExprDecision}
    (node : ∀ tree, (change tree).decision.node = tree.decision.node)
    (exprs : ∀ tree, (change tree).exprs = tree.exprs.map changeExpr)
    (kept : ∀ depth expr, (changeExpr expr).parts depth = expr.parts depth)
    (children : ∀ tree, (change tree).children = tree.children.map change) (depth : Nat)
    (tree : PlanDecision) : (change tree).parts depth = tree.parts depth := by
  induction tree generalizing depth with
  | node decision evaluated inputs ih =>
      rw [parts_eq, node, exprs, children, List.flatMap_map, List.flatMap_map, parts_eq]
      have below : inputs.flatMap (fun input => (change input).parts (depth + 1)) =
          inputs.flatMap (parts (depth + 1)) :=
        List.flatMap_congr fun input member => ih input member _
      simp only [kept, below]

theorem parts_tag (config : Config) (depth : Nat) (tree : PlanDecision) :
    (tree.tag registry config).parts depth = tree.parts depth :=
  parts_of_nodewise (tag_node registry config) (tag_exprs registry config)
    (ExprDecision.parts_tag config) (tag_children registry config) depth tree

theorem parts_unconverted (depth : Nat) (tree : PlanDecision) :
    tree.unconverted.parts depth = tree.parts depth := by
  refine parts_of_nodewise ?_ ?_ ExprDecision.parts_unconverted ?_ depth tree
  all_goals
    rintro ⟨decision, exprs, children⟩
    rw [unconverted_eq]
  rfl

theorem parts_settleBelow (parentEligible : Bool) (depth : Nat) (tree : PlanDecision) :
    (tree.settleBelow parentEligible).parts depth = tree.parts depth := by
  induction tree generalizing parentEligible depth with
  | node decision exprs children ih =>
      rw [parts_eq, settleBelow_node, settleBelow_exprs, parts_eq, settleBelow_eq,
        List.flatMap_map]
      exact congrArg (fun below => _ :: (_ ++ below))
        (List.flatMap_congr fun child member => ih child member ..)

theorem parts_request (request : PlanRequest) (depth : Nat) (tree : PlanDecision) :
    (tree.request registry request).2.parts depth = tree.parts depth := by
  rw [PlanDecision.request, ← parts_unconverted]
  split
  · rw [convertIfNeeded_unconverted, parts_unconverted]
  · rw [convert_unconverted, parts_unconverted]

theorem parts_run (steps : List (Step PlanRequest)) (depth : Nat) (tree : PlanDecision) :
    (tree.run registry steps).parts depth = tree.parts depth := by
  induction steps generalizing tree with
  | nil => rfl
  | cons next rest ih =>
      rw [run, List.foldl_cons, ← run, ih]
      cases next with
      | tag config => exact parts_tag config depth tree
      | reject reason => rw [parts_eq, parts_eq]; rfl
      | convert request => exact parts_request request depth tree

end PlanDecision

/-! Every traversal follows the listing of the tree. -/

namespace ReportEntry

/-- The entry says what is known about a node, at the node's depth. -/
structure Describes (entry : ReportEntry) (place : Nat × NodeDecision) : Prop where
  depth : entry.depth = place.1
  label : entry.label = place.2.label
  short : entry.short = place.2.part.short
  text : entry.text = place.2.part.describe
  reasons : entry.reasons = place.2.reasons
  indicator : entry.mark.symbol = "!" ↔ place.2.reasons ≠ []

theorem symbol_eq_iff {entry : ReportEntry} : entry.mark.symbol = "!" ↔ entry.mark = .onHost := by
  cases entry.mark <;> decide

theorem indicator_iff {Node Op : Type} [HostNode Node] {depth : Nat} {holderEligible : Option Bool}
    {decision : Decision Node Op} :
    (ofDecision depth holderEligible decision).mark.symbol = "!" ↔ decision.reasons ≠ [] := by
  rw [symbol_eq_iff, mark_eq_onHost_iff, Decision.eligible, List.isEmpty_eq_false_iff]

theorem line_eq (entry : ReportEntry) :
    entry.line = (indentation entry.depth ++ entry.mark.symbol ++ entry.label ++ " <" ++
      entry.short ++ "> " ++ (if entry.text.isEmpty then "" else entry.text ++ " ")) ++
        (entry.conclusion ++ "\n") :=
  rfl

/-- A line starts with two blanks for each level above its node, and then with the indicator. -/
theorem line_starts (entry : ReportEntry) : ∃ rest,
    entry.line.toList =
      List.replicate (2 * entry.depth) ' ' ++ (entry.mark.symbol.toList ++ rest) := by
  rw [line_eq]
  simp only [indentation, String.toList_append, String.toList_ofList, List.append_assoc]
  exact ⟨_, rfl⟩

end ReportEntry

theorem forall₂_flatMap {α β γ : Type} {related : β → γ → Prop} {items : List α}
    {f : α → List β} {g : α → List γ}
    (each : ∀ item ∈ items, List.Forall₂ related (f item) (g item)) :
    List.Forall₂ related (items.flatMap f) (items.flatMap g) := by
  induction items with
  | nil => exact .nil
  | cons item rest ih =>
      obtain ⟨first, later⟩ := List.forall_mem_cons.mp each
      exact List.rel_append first (ih later)

theorem ExprDecision.entriesAt_describe (depth : Nat) (holder : Option Bool)
    (tree : ExprDecision) :
    List.Forall₂ ReportEntry.Describes (tree.entriesAt depth holder) (tree.listed depth) := by
  induction tree generalizing depth holder with
  | node decision children ih =>
      rw [entriesAt, entriesOfExprs_eq_flatMap, listed_eq]
      refine .cons ⟨rfl, rfl, rfl, rfl, rfl, ReportEntry.indicator_iff⟩ (forall₂_flatMap ?_)
      exact fun child member => ih child member ..

theorem PlanDecision.entriesAt_describe (depth : Nat) (holder : Option Bool)
    (tree : PlanDecision) :
    List.Forall₂ ReportEntry.Describes (tree.entriesAt depth holder) (tree.listed depth) := by
  induction tree generalizing depth holder with
  | node decision exprs children ih =>
      rw [entriesAt, entriesOfExprs_eq_flatMap, entriesOfPlans_eq_flatMap, listed_eq]
      refine .cons ⟨rfl, rfl, rfl, rfl, rfl, ReportEntry.indicator_iff⟩ ?_
      refine List.rel_append (forall₂_flatMap ?_) (forall₂_flatMap ?_)
      · exact fun expr _ => expr.entriesAt_describe ..
      · exact fun child member => ih child member ..

/-- How many entries are not marked as ineligible, and how many there are. -/
def countEntries (entries : List ReportEntry) : Nat × Nat :=
  (entries.countP fun entry => entry.mark.symbol ≠ "!", entries.length)

theorem countEntries_append (entries others : List ReportEntry) :
    countEntries (entries ++ others) = ((countEntries entries).1 + (countEntries others).1,
      (countEntries entries).2 + (countEntries others).2) := by
  rw [countEntries, List.countP_append, List.length_append]
  rfl

theorem countEntries_cons {Node Op : Type} [HostNode Node] (depth : Nat)
    (holder : Option Bool) (decision : Decision Node Op) (rest : List ReportEntry) :
    countEntries (.ofDecision depth holder decision :: rest) =
      (decision.eligible.toNat + (countEntries rest).1, (countEntries rest).2 + 1) := by
  have own : (ReportEntry.ofDecision depth holder decision).mark.symbol = "!" ↔
      decision.eligible = false := by
    rw [ReportEntry.symbol_eq_iff, ReportEntry.mark_eq_onHost_iff]
  rw [countEntries, List.countP_cons, List.length_cons]
  cases eligible : decision.eligible with
  | false => simp [own, eligible, countEntries]
  | true => simp [own, eligible, countEntries, Nat.add_comm]

theorem ExprDecision.countsOfAll_eq {depth : Nat} {holder : Option Bool}
    {trees : List ExprDecision}
    (each : ∀ tree ∈ trees, tree.counts = countEntries (tree.entriesAt depth holder)) :
    countsOfAll trees = countEntries (entriesOfExprs depth holder trees) := by
  induction trees with
  | nil => rfl
  | cons tree rest ih =>
      obtain ⟨first, later⟩ := List.forall_mem_cons.mp each
      rw [countsOfAll, entriesOfExprs, countEntries_append, first, ih later]

theorem ExprDecision.counts_eq (depth : Nat) (holder : Option Bool) (tree : ExprDecision) :
    tree.counts = countEntries (tree.entriesAt depth holder) := by
  induction tree generalizing depth holder with
  | node decision children ih =>
      have arguments :=
        countsOfAll_eq fun child member => ih child member (depth + 1) decision.holds
      rw [counts, arguments, entriesAt, countEntries_cons]

theorem PlanDecision.countsOfAll_eq {depth : Nat} {holder : Option Bool}
    {trees : List PlanDecision}
    (each : ∀ tree ∈ trees, tree.counts = countEntries (tree.entriesAt depth holder)) :
    countsOfAll trees = countEntries (entriesOfPlans depth holder trees) := by
  induction trees with
  | nil => rfl
  | cons tree rest ih =>
      obtain ⟨first, later⟩ := List.forall_mem_cons.mp each
      rw [countsOfAll, entriesOfPlans, countEntries_append, first, ih later]

theorem PlanDecision.counts_eq (depth : Nat) (holder : Option Bool) (tree : PlanDecision) :
    tree.counts = countEntries (tree.entriesAt depth holder) := by
  induction tree generalizing depth holder with
  | node decision exprs children ih =>
      have evaluated := ExprDecision.countsOfAll_eq fun expr (_ : expr ∈ exprs) =>
        expr.counts_eq (depth + 1) (some decision.eligible)
      have inputs := countsOfAll_eq fun child member => ih child member (depth + 1) decision.holds
      rw [counts, evaluated, inputs, entriesAt, countEntries_cons, countEntries_append]
      exact Prod.ext (Nat.add_assoc ..) rfl

theorem ExprDecision.walk_eq (depth : Nat) (tree : ExprDecision) :
    tree.walk = (tree.listed depth).filterMap fun place => place.2.expr? := by
  induction tree generalizing depth with
  | node decision children ih =>
      rw [walk, walkAll_eq_flatMap, listed_eq, List.filterMap_cons, List.filterMap_flatMap]
      exact congrArg (decision :: ·) (List.flatMap_congr fun child member => ih child member _)

theorem ExprDecision.listed_no_operators (depth : Nat) (tree : ExprDecision) :
    ((tree.listed depth).filterMap fun place => place.2.operator?) = [] := by
  induction tree generalizing depth with
  | node decision children ih =>
      rw [listed_eq, List.filterMap_cons, List.filterMap_flatMap]
      exact List.flatMap_eq_nil_iff.mpr fun child member => ih child member _

theorem PlanDecision.walk_eq (depth : Nat) (tree : PlanDecision) :
    tree.walk = (tree.listed depth).filterMap fun place => place.2.operator? := by
  induction tree generalizing depth with
  | node decision exprs children ih =>
      have evaluated : (exprs.flatMap fun expr =>
          (expr.listed (depth + 1)).filterMap fun place => place.2.operator?) = [] :=
        List.flatMap_eq_nil_iff.mpr fun expr _ => expr.listed_no_operators _
      rw [walk, walkAll_eq_flatMap, listed_eq, List.filterMap_cons, List.filterMap_append,
        List.filterMap_flatMap, List.filterMap_flatMap, evaluated, List.nil_append]
      exact congrArg (decision :: ·) (List.flatMap_congr fun child member => ih child member _)

theorem ReportMode.render_notOnGpu (entries : List ReportEntry) :
    render .notOnGpu entries = String.join
      ((entries.filter fun entry => entry.mark.symbol = "!").map ReportEntry.line) := by
  have shown (entry : ReportEntry) :
      ReportMode.notOnGpu.shows entry = decide (entry.mark.symbol = "!") :=
    decide_eq_decide.mpr ReportEntry.symbol_eq_iff.symm
  rw [render, List.filter_congr fun entry _ => shown entry]

/-- The traversals of a tree agree. A report of everything has one entry for each node of the
listing, at the node's depth, and the other results can be read off the entries. -/
structure TraversalsAgree (nodes : List (Nat × NodeDecision)) (entries : List ReportEntry)
    (report : ReportMode → String) (counts : Nat × Nat) : Prop where
  described : List.Forall₂ ReportEntry.Describes entries nodes
  indented : ∀ entry ∈ entries, ∃ rest, entry.line.toList =
    List.replicate (2 * entry.depth) ' ' ++ (entry.mark.symbol.toList ++ rest)
  all : report .all = String.join (entries.map ReportEntry.line)
  notOnGpu : report .notOnGpu = String.join
    ((entries.filter fun entry => entry.mark.symbol = "!").map ReportEntry.line)
  counts : counts = countEntries entries

theorem ExprDecision.traversalsAgree (tree : ExprDecision) :
    TraversalsAgree (tree.listed 0) tree.entries tree.report tree.counts where
  described := tree.entriesAt_describe 0 none
  indented entry _ := entry.line_starts
  all := ReportMode.render_all _
  notOnGpu := ReportMode.render_notOnGpu _
  counts := tree.counts_eq 0 none

theorem PlanDecision.traversalsAgree (tree : PlanDecision) :
    TraversalsAgree (tree.listed 0) tree.entries tree.report tree.counts where
  described := tree.entriesAt_describe 0 none
  indented entry _ := entry.line_starts
  all := ReportMode.render_all _
  notOnGpu := ReportMode.render_notOnGpu _
  counts := tree.counts_eq 0 none

/-- Reports, counts and walks of every tree go through its nodes in the order of one listing; the
walk leaves out what is not of the root's kind. The listing is that of the host tree, whatever was
done to the decisions, and whether or not exchanges were settled then. -/
theorem traversals_agree (registry : Registry) :
    (∀ tree : ExprDecision,
      TraversalsAgree (tree.listed 0) tree.entries tree.report tree.counts ∧
      tree.walk = (tree.listed 0).filterMap fun place => place.2.expr?) ∧
    (∀ tree : PlanDecision,
      TraversalsAgree (tree.listed 0) tree.entries tree.report tree.counts ∧
      tree.walk = (tree.listed 0).filterMap fun place => place.2.operator?) ∧
    (∀ expr steps, ((ExprDecision.ofExpr registry expr).run registry steps).parts 0 =
      expr.listed 0) ∧
    ∀ plan steps, let tagged := (PlanDecision.ofPlan registry plan).run registry steps
      tagged.parts 0 = plan.listed 0 ∧ tagged.settleExchanges.parts 0 = plan.listed 0 := by
  refine ⟨fun tree => ⟨tree.traversalsAgree, tree.walk_eq 0⟩,
    fun tree => ⟨tree.traversalsAgree, tree.walk_eq 0⟩, ?exprs, ?plans⟩
  case exprs =>
    intro expr steps
    rw [ExprDecision.parts_run, ExprDecision.ofExpr, ExprDecision.parts_ofExprAt]
  case plans =>
    intro plan steps tagged
    have listed : tagged.parts 0 = plan.listed 0 := by
      rw [PlanDecision.parts_run, PlanDecision.ofPlan, PlanDecision.parts_ofPlanBelow]
    exact ⟨listed, (PlanDecision.parts_settleBelow false 0 tagged).trans listed⟩

end GpuPlacement
