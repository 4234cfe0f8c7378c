import GpuPlacement.Proofs.Traversals
import GpuPlacement.Text.Lines
/-!
The lines of reports. An entry ends in a line feed, but its text may hold more of them: names,
literals and reasons stand in it as they are.
-/
namespace GpuPlacement

/-- How many line feeds a text has. -/
def lineFeeds (text : String) : Nat :=
  text.toList.count '\n'

@[simp] theorem lineFeeds_append (text other : String) :
    lineFeeds (text ++ other) = lineFeeds text + lineFeeds other := by
  rw [lineFeeds, String.toList_append, List.count_append]
  rfl

theorem lineFeeds_intercalate {separator : String} (plain : lineFeeds separator = 0)
    (texts : List String) :
    lineFeeds (separator.intercalate texts) = lineFeeds (String.join texts) := by
  rw [lineFeeds, String.toList_intercalate]
  induction texts with
  | nil => rfl
  | cons text rest ih =>
      cases rest with
      | nil => simp [List.intercalate, lineFeeds]
      | cons next later =>
          rw [List.map_cons, List.map_cons, List.intercalate_cons_cons, List.count_append,
            List.count_append, ← List.map_cons, ih]
          change lineFeeds text + lineFeeds separator + _ = _
          rw [plain, Nat.add_zero, String.join_cons (s := text), lineFeeds_append]

/-- Texts bring no line feeds together when none of them has one. -/
theorem lineFeeds_join_eq_zero_iff {texts : List String} :
    lineFeeds (String.join texts) = 0 ↔ ∀ text ∈ texts, '\n' ∉ text.toList := by
  rw [lineFeeds, List.count_eq_zero, String.toList_join, List.mem_flatMap]
  simp only [not_exists, not_and]

theorem linesFrom_cons (current : List Char) (character : Char) (rest : List Char) :
    linesFrom current (character :: rest) =
      if character = '\n' then (dropReturn current).reverse :: linesFrom [] rest
      else linesFrom (character :: current) rest := by
  by_cases feed : character = '\n'
  · rw [if_pos feed, feed, linesFrom]
  · rw [if_neg feed, linesFrom]
    exact feed

theorem length_linesFrom (current characters : List Char) :
    (linesFrom current (characters ++ ['\n'])).length = characters.count '\n' + 1 := by
  induction characters generalizing current with
  | nil => rfl
  | cons character rest ih =>
      rw [List.cons_append, linesFrom_cons, List.count_cons]
      by_cases feed : character = '\n'
      · simp [feed, ih]
      · simp [feed, ih]

/-- Lines that are ended by line feeds are as many as these. -/
theorem length_textLines {text : String} (ended : text = "" ∨ ∃ start, text = start ++ "\n") :
    (textLines text).length = lineFeeds text := by
  rcases ended with rfl | ⟨start, rfl⟩
  · rfl
  · rw [textLines, List.length_map, String.toList_append, lineFeeds_append]
    exact length_linesFrom [] start.toList

/-- The texts of a node that its entry shows: the name of its class, its own text and the reasons
against it. -/
def NodeDecision.texts (node : NodeDecision) : List String :=
  node.part.short :: node.part.describe :: node.reasons

/-- All texts that the entries of some nodes show. -/
def shownTexts (nodes : List (Nat × NodeDecision)) : List String :=
  nodes.flatMap fun place => place.2.texts

theorem lineFeeds_indentation (depth : Nat) : lineFeeds (indentation depth) = 0 := by
  rw [lineFeeds, indentation, String.toList_ofList, List.count_replicate]
  rfl

theorem ReportMark.lineFeeds_symbol (mark : ReportMark) : lineFeeds mark.symbol = 0 := by
  cases mark <;> decide

theorem RuleKind.lineFeeds_label (kind : RuleKind) : lineFeeds kind.label = 0 := by
  cases kind <;> decide

theorem Decision.lineFeeds_label {Node Op : Type} (decision : Decision Node Op) :
    lineFeeds decision.label = 0 := by
  unfold label
  split
  · exact decision.kind.lineFeeds_label
  · decide

theorem NodeDecision.lineFeeds_label (node : NodeDecision) : lineFeeds node.label = 0 := by
  cases node with
  | operator decision => exact decision.lineFeeds_label
  | expr decision => exact decision.lineFeeds_label

namespace ReportEntry

variable {entry : ReportEntry} {place : Nat × NodeDecision}

theorem Describes.lineFeeds_conclusion (h : entry.Describes place) :
    lineFeeds entry.conclusion = lineFeeds (String.join place.2.reasons) := by
  have indicator := h.indicator
  rw [symbol_eq_iff] at indicator
  rw [conclusion, h.reasons]
  cases mark : entry.mark with
  | onHost =>
      dsimp only
      rw [lineFeeds_append, lineFeeds_intercalate (by decide)]
      exact Nat.zero_add _
  | _ =>
      have none : place.2.reasons = [] := by
        by_contra some
        exact absurd (mark.symm.trans (indicator.mpr some)) (by decide)
      rw [none]
      decide

theorem Describes.lineFeeds_line (h : entry.Describes place) :
    lineFeeds entry.line = lineFeeds (String.join place.2.texts) + 1 := by
  have text : lineFeeds (if entry.text.isEmpty then "" else entry.text ++ " ") =
      lineFeeds place.2.part.describe := by
    rw [h.text]
    split
    next empty => rw [String.isEmpty_iff.mp empty]
    next => exact lineFeeds_append ..
  have around : lineFeeds " <" = 0 ∧ lineFeeds "> " = 0 ∧ lineFeeds "\n" = 1 := by decide
  rw [line_eq]
  simp only [lineFeeds_append, text, h.lineFeeds_conclusion, h.label, h.short,
    lineFeeds_indentation, ReportMark.lineFeeds_symbol, NodeDecision.lineFeeds_label, around,
    NodeDecision.texts, String.join_cons, Nat.zero_add, Nat.add_zero, Nat.add_assoc]

theorem line_ends (entry : ReportEntry) : ∃ start, entry.line = start ++ "\n" := by
  rw [line_eq, ← String.append_assoc]
  exact ⟨_, rfl⟩

theorem join_lines_ends (entries : List ReportEntry) :
    String.join (entries.map line) = "" ∨
      ∃ start, String.join (entries.map line) = start ++ "\n" := by
  rcases List.eq_nil_or_concat' entries with rfl | ⟨earlier, last, rfl⟩
  · exact .inl rfl
  · right
    obtain ⟨start, ends⟩ := last.line_ends
    refine ⟨String.join (earlier.map line) ++ start, ?_⟩
    rw [List.map_append, String.join_append, List.map_singleton, ends, String.append_assoc]
    rfl

/-- Entries have one line each and one more for every line feed in the texts of their nodes. -/
theorem length_lines {entries : List ReportEntry} {nodes : List (Nat × NodeDecision)}
    (described : List.Forall₂ Describes entries nodes) :
    (textLines (String.join (entries.map line))).length =
      nodes.length + lineFeeds (String.join (shownTexts nodes)) := by
  rw [length_textLines (join_lines_ends entries), shownTexts]
  induction described with
  | nil => rfl
  | cons first _ ih =>
      rw [List.map_cons, String.join_cons, lineFeeds_append, first.lineFeeds_line, ih,
        List.flatMap_cons, String.join_append, lineFeeds_append, List.length_cons]
      omega

end ReportEntry

/-- How many lines the reports about a tree have: one for each node that they show and one more for
every line feed in the texts of these nodes. -/
structure LinesFollow (nodes : List (Nat × NodeDecision)) (report : ReportMode → String)
    (counts : Nat × Nat) : Prop where
  all : (textLines (report .all)).length = counts.2 + lineFeeds (String.join (shownTexts nodes))
  notOnGpu : (textLines (report .notOnGpu)).length = counts.2 - counts.1 +
    lineFeeds (String.join (shownTexts (nodes.filter fun place => place.2.reasons ≠ [])))
  one_each_iff : (textLines (report .all)).length = counts.2 ↔
    ∀ place ∈ nodes, ∀ text ∈ place.2.texts, '\n' ∉ text.toList
  one_each_ineligible_iff : (textLines (report .notOnGpu)).length = counts.2 - counts.1 ↔
    ∀ place ∈ nodes, place.2.reasons ≠ [] → ∀ text ∈ place.2.texts, '\n' ∉ text.toList

theorem forall_mem_shownTexts {nodes : List (Nat × NodeDecision)} {property : String → Prop} :
    (∀ text ∈ shownTexts nodes, property text) ↔
      ∀ place ∈ nodes, ∀ text ∈ place.2.texts, property text :=
  List.forall_mem_flatMap

theorem TraversalsAgree.linesFollow {nodes : List (Nat × NodeDecision)}
    {entries : List ReportEntry} {report : ReportMode → String} {counts : Nat × Nat}
    (h : TraversalsAgree nodes entries report counts) : LinesFollow nodes report counts := by
  have total : nodes.length = counts.2 := by
    rw [h.counts, ← h.described.length_eq]
    rfl
  have shown : List.Forall₂ ReportEntry.Describes
      (entries.filter fun entry => entry.mark.symbol = "!")
      (nodes.filter fun place => place.2.reasons ≠ []) :=
    List.rel_filter (fun {_ _} describes => by simpa using describes.indicator) h.described
  have ineligible : (nodes.filter fun place => place.2.reasons ≠ []).length =
      counts.2 - counts.1 := by
    have split : entries.length = (entries.countP fun entry => entry.mark.symbol = "!") +
        entries.countP fun entry => entry.mark.symbol ≠ "!" := by
      rw [List.length_eq_countP_add_countP fun entry : ReportEntry => entry.mark.symbol = "!"]
      simp
    rw [← shown.length_eq, ← List.countP_eq_length_filter, h.counts, countEntries]
    exact Nat.eq_sub_of_add_eq split.symm
  have all : (textLines (report .all)).length =
      counts.2 + lineFeeds (String.join (shownTexts nodes)) := by
    rw [h.all, ReportEntry.length_lines h.described, total]
  have notOnGpu : (textLines (report .notOnGpu)).length = counts.2 - counts.1 +
      lineFeeds (String.join (shownTexts (nodes.filter fun place => place.2.reasons ≠ []))) := by
    rw [h.notOnGpu, ReportEntry.length_lines shown, ineligible]
  refine ⟨all, notOnGpu, ?_, ?_⟩
  · rw [all, Nat.add_eq_left, lineFeeds_join_eq_zero_iff, forall_mem_shownTexts]
  · rw [notOnGpu, Nat.add_eq_left, lineFeeds_join_eq_zero_iff, forall_mem_shownTexts]
    simp only [List.mem_filter, decide_eq_true_eq, and_imp]

/-- Reports have one line for each node that they show as long as no text in them has a line feed.
Every line feed in a class name, a node's own text or a reason adds a line. -/
theorem report_lines (expr : ExprDecision) (plan : PlanDecision) :
    LinesFollow (expr.listed 0) expr.report expr.counts ∧
      LinesFollow (plan.listed 0) plan.report plan.counts :=
  ⟨expr.traversalsAgree.linesFollow, plan.traversalsAgree.linesFollow⟩

/-- A string literal with a line feed takes two lines. -/
theorem not_forall_report_lines_total :
    ¬ ∀ (registry : Registry) (config : Config) (expr : HostExpr),
      let tree := (ExprDecision.ofExpr registry expr).tag registry config
      (textLines (tree.report .all)).length = tree.counts.2 := by
  intro always
  let tree := (ExprDecision.ofExpr Builtin.registry (.literal (.string "a\nb"))).tag
    Builtin.registry .default
  have plain := (tree.traversalsAgree.linesFollow.one_each_iff).mp
    (always Builtin.registry .default (.literal (.string "a\nb")))
  -- The text of the node does not depend on what tagging finds.
  have node : tree.decision.node = .literal (.string "a\nb") := by
    rw [ExprDecision.tag_node, ExprDecision.ofExpr, ExprDecision.ofExprAt_node]
  have root : (0, .expr tree.decision) ∈ tree.listed 0 := by
    rw [ExprDecision.listed_eq]
    exact List.mem_cons_self
  have text : '\n' ∉ (HostExpr.sql tree.decision.node).toList :=
    plain _ root _ (List.mem_cons_of_mem _ List.mem_cons_self)
  rw [node] at text
  exact text (by decide +kernel)

end GpuPlacement
