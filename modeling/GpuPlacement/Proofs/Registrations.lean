import Mathlib.Data.List.Dedup
import GpuPlacement.Proofs.Builtin
import GpuPlacement.Proofs.Dictionary
/-!
Sessions of registrations. A table that started empty knows the last accepted rule of every class
and nothing else of its history, and the documentation has one row for each of these rules: neither
displaced rules nor the order of registration show in it, as long as keys tell the rows apart.
-/
namespace GpuPlacement

/-- A request to put a rule into a table. -/
inductive Registration (Rule : Type) where
  /-- In place of an older rule of its class. -/
  | register (rule : Rule)
  /-- Unless its class has a rule. -/
  | tryRegister (rule : Rule)

def Registration.rule {Rule : Type} : Registration Rule → Rule
  | .register rule | .tryRegister rule => rule

namespace RuleTable

variable {Node Child Op : Type}

/-- The answer to a request, with the rule that was replaced, and the table behind it. -/
def answer (table : RuleTable Node Child Op) :
    Registration (Rule Node Child Op) →
      Except PlacementError (Option (Rule Node Child Op)) × RuleTable Node Child Op
  | .register rule => (.ok (table.register rule).1, (table.register rule).2)
  | .tryRegister rule =>
    match table.tryRegister rule with
    | .ok extended => (.ok none, extended)
    | .error error => (.error error, table)

/-- The table behind requests one after the other. -/
def session (table : RuleTable Node Child Op)
    (requests : List (Registration (Rule Node Child Op))) : RuleTable Node Child Op :=
  requests.foldl (fun table request => (table.answer request).2) table

/-- The rules whose requests succeed, in order. -/
def accepted (table : RuleTable Node Child Op) :
    List (Registration (Rule Node Child Op)) → List (Rule Node Child Op)
  | [] => []
  | request :: rest =>
    match table.answer request with
    | (.ok _, next) => request.rule :: next.accepted rest
    | (.error _, next) => next.accepted rest

variable {table : RuleTable Node Child Op} {rule : Rule Node Child Op}
  {request : Registration (Rule Node Child Op)} {error : PlacementError}

theorem answer_of_free (free : table.find? rule.spec.className = none) :
    table.answer (.tryRegister rule) = (.ok none, table.insert rule) := by
  rw [answer, tryRegister, free]

theorem answer_of_taken {present : Rule Node Child Op}
    (taken : table.find? rule.spec.className = some present) :
    table.answer (.tryRegister rule) =
      (.error (.duplicateRule rule.spec.className.name), table) := by
  rw [answer, tryRegister, taken]

/-- A request puts its rule into the table or is refused, and then the table stays as it is. -/
theorem answer_cases (table : RuleTable Node Child Op)
    (request : Registration (Rule Node Child Op)) :
    (∃ replaced, table.answer request = (.ok replaced, table.insert request.rule)) ∨
      ∃ error, table.answer request = (.error error, table) := by
  cases request with
  | register rule => exact .inl ⟨_, rfl⟩
  | tryRegister rule =>
      cases known : table.find? rule.spec.className with
      | none => exact .inl ⟨none, answer_of_free known⟩
      | some present => exact .inr ⟨_, answer_of_taken known⟩

theorem tryRegister_refused_iff :
    (table.answer (.tryRegister rule)).1 = .error error ↔
      (table.find? rule.spec.className).isSome = true ∧
        error = .duplicateRule rule.spec.className.name := by
  cases known : table.find? rule.spec.className with
  | none => simp [answer_of_free known]
  | some present => simp [answer_of_taken known, eq_comm]

/-- A table holds what was accepted, one rule after the other. -/
theorem session_eq_foldl (table : RuleTable Node Child Op)
    (requests : List (Registration (Rule Node Child Op))) :
    table.session requests = (table.accepted requests).foldl insert table := by
  induction requests generalizing table with
  | nil => rfl
  | cons request rest ih =>
      rw [session, List.foldl_cons, accepted]
      rcases table.answer_cases request with ⟨replaced, answered⟩ | ⟨error, answered⟩
      · rw [answered]
        exact ih (table.insert request.rule)
      · rw [answered]
        exact ih table

/-- The last rule of a class. -/
def LastOf (rules : List (Rule Node Child Op)) (className : ClassName)
    (rule : Rule Node Child Op) : Prop :=
  ∃ before after, rules = before ++ rule :: after ∧ rule.spec.className = className ∧
    ∀ later ∈ after, later.spec.className ≠ className

/-- The rules without those that a later one of their class displaces. -/
def lasting (rules : List (Rule Node Child Op)) : List (Rule Node Child Op) :=
  rules.pwFilter fun rule later => rule.spec.className ≠ later.spec.className

variable {rules : List (Rule Node Child Op)} {className : ClassName}

theorem lastOf_cons_iff {head : Rule Node Child Op} :
    LastOf (head :: rules) className rule ↔ LastOf rules className rule ∨
      (rule = head ∧ head.spec.className = className ∧
        ∀ later ∈ rules, later.spec.className ≠ className) := by
  constructor
  · rintro ⟨before, after, listed, same, others⟩
    rcases List.cons_eq_append_iff.mp listed with ⟨rfl, first⟩ | ⟨before, rfl, rfl⟩
    · obtain ⟨rfl, rfl⟩ := List.cons.inj first
      exact .inr ⟨rfl, same, others⟩
    · exact .inl ⟨before, after, rfl, same, others⟩
  · rintro (⟨before, after, rfl, same, others⟩ | ⟨rfl, same, others⟩)
    · exact ⟨head :: before, after, rfl, same, others⟩
    · exact ⟨[], rules, rfl, same, others⟩

theorem LastOf.className_eq (last : LastOf rules className rule) :
    rule.spec.className = className := by
  obtain ⟨before, after, listed, same, others⟩ := last
  exact same

theorem lasting_spares_iff (rule : Rule Node Child Op) (rules : List (Rule Node Child Op)) :
    (∀ later ∈ lasting rules, rule.spec.className ≠ later.spec.className) ↔
      ∀ later ∈ rules, rule.spec.className ≠ later.spec.className := by
  refine List.forall_mem_pwFilter ?_ rule rules
  -- A rule has the class of one at most of two rules whose classes differ.
  intro first middle last differ
  by_cases same : first.spec.className = middle.spec.className
  · exact .inr (same ▸ differ)
  · exact .inl same

theorem mem_lasting_iff : rule ∈ lasting rules ↔ LastOf rules rule.spec.className rule := by
  induction rules with
  | nil => simp [lasting, LastOf]
  | cons head rest ih =>
      rw [lastOf_cons_iff, ← ih]
      by_cases last : ∀ later ∈ rest, head.spec.className ≠ later.spec.className
      · rw [lasting, List.pwFilter_cons_of_pos ((lasting_spares_iff head rest).mpr last),
          List.mem_cons, or_comm, lasting]
        refine or_congr_right ⟨?_, And.left⟩
        rintro rfl
        exact ⟨rfl, rfl, fun later member => (last later member).symm⟩
      · rw [lasting, List.pwFilter_cons_of_neg (mt (lasting_spares_iff head rest).mp last)]
        refine (or_iff_left ?_).symm
        rintro ⟨rfl, -, others⟩
        exact last fun later member => (others later member).symm

theorem find?_ofList_eq_some_iff :
    (ofList rules).find? className = some rule ↔ LastOf rules className rule := by
  rw [find?_ofList, List.find?_eq_some_iff_append]
  simp only [List.reverse_eq_append_iff, List.reverse_cons, List.append_assoc, List.cons_append,
    List.nil_append, decide_eq_true_eq, Bool.not_eq_true', decide_eq_false_iff_not]
  constructor
  · rintro ⟨rfl, after, before, listed, others⟩
    refine ⟨before.reverse, after.reverse, by simpa using listed, rfl, ?_⟩
    exact fun later member => Ne.symm (others later (List.mem_reverse.mp member))
  · rintro ⟨before, after, listed, rfl, others⟩
    refine ⟨rfl, after.reverse, before.reverse, by simpa using listed, ?_⟩
    exact fun later member => Ne.symm (others later (List.mem_reverse.mp member))

theorem find?_ofList_isSome_iff : ((ofList rules).find? className).isSome = true ↔
    ∃ rule ∈ rules, rule.spec.className = className := by
  rw [find?_ofList, List.find?_isSome]
  simp [eq_comm]

/-- The entries of a table are its lasting rules. -/
theorem entries_ofList_perm (rules : List (Rule Node Child Op)) :
    (ofList rules).rules.entries.Perm
      ((lasting rules).map fun rule => (rule.spec.className.name, rule)) := by
  have distinct : ((lasting rules).map fun rule => (rule.spec.className.name, rule)).Nodup := by
    rw [List.Nodup, List.pairwise_map]
    exact (List.pairwise_pwFilter rules).imp fun differ same =>
      differ (congrArg (·.2.spec.className) same)
  -- Neither side has a rule twice, so members decide.
  rw [List.perm_ext_iff_of_nodup (Dict.nodup_keys (ofList rules).rules.sorted).of_map distinct]
  rintro ⟨name, rule⟩
  have found : (ofList rules).rules.get? name = some rule ↔ LastOf rules ⟨name⟩ rule :=
    find?_ofList_eq_some_iff
  rw [Dict.mem_entries_iff, found, List.mem_map]
  constructor
  · intro last
    have same := last.className_eq
    exact ⟨rule, mem_lasting_iff.mpr (same ▸ last), by rw [same]⟩
  · rintro ⟨_, member, same⟩
    obtain ⟨rfl, rfl⟩ := Prod.mk.inj same
    exact mem_lasting_iff.mp member

theorem size_ofList (rules : List (Rule Node Child Op)) :
    (ofList rules).size = (rules.map (·.spec.className)).dedup.length := by
  rw [size, Dict.size, (entries_ofList_perm rules).length_eq, List.length_map, List.dedup,
    List.pwFilter_map, List.length_map]
  rfl

theorem specs_ofList_perm (rules : List (Rule Node Child Op)) :
    (ofList rules).specs.Perm ((lasting rules).map (·.spec)) := by
  have listed := (entries_ofList_perm rules).map (·.2.spec)
  rw [List.map_map] at listed
  exact ((List.mergeSort_perm ..).map _).trans listed

/-- What a table tells when exactly these requests succeeded. -/
structure Records (table : RuleTable Node Child Op) (accepted : List (Rule Node Child Op)) :
    Prop where
  /-- A look-up finds the last accepted rule of exactly its class. -/
  found : ∀ className rule, table.find? className = some rule ↔ LastOf accepted className rule
  /-- A rule is registered whatever there is, and the last accepted rule of its class returned. -/
  replaced : ∀ rule, ∃ answer, (table.answer (.register rule)).1 = .ok answer ∧
    ∀ replaced, answer = some replaced ↔ LastOf accepted rule.spec.className replaced
  /-- The second way of registering fails just for classes that were accepted before. -/
  refused : ∀ rule error, (table.answer (.tryRegister rule)).1 = .error error ↔
    (∃ present ∈ accepted, present.spec.className = rule.spec.className) ∧
      error = .duplicateRule rule.spec.className.name
  unchanged : ∀ request error, (table.answer request).1 = .error error →
    (table.answer request).2 = table
  /-- Every class counts once. -/
  counted : table.size = (accepted.map (·.spec.className)).dedup.length

theorem records_ofList (rules : List (Rule Node Child Op)) : (ofList rules).Records rules where
  found _ _ := find?_ofList_eq_some_iff
  replaced _ := ⟨_, rfl, fun _ => find?_ofList_eq_some_iff⟩
  refused rule error := by rw [tryRegister_refused_iff, find?_ofList_isSome_iff]
  unchanged request error failed := by
    rcases (ofList rules).answer_cases request with ⟨replaced, answered⟩ | ⟨error, answered⟩
    · rw [answered] at failed
      cases failed
    · rw [answered]
  counted := size_ofList rules

end RuleTable

/-- A request to one of the two tables of a registry. -/
inductive RegistryRequest where
  | expr (request : Registration ExprRule)
  | operator (request : Registration OperatorRule)

namespace RegistryRequest

def expr? : RegistryRequest → Option (Registration ExprRule)
  | .expr request => some request
  | .operator _ => none

def operator? : RegistryRequest → Option (Registration OperatorRule)
  | .expr _ => none
  | .operator request => some request

end RegistryRequest

namespace Registry

open scoped List

/-- The registry behind a request. -/
def handle (registry : Registry) : RegistryRequest → Registry
  | .expr request => { registry with exprs := (registry.exprs.answer request).2 }
  | .operator request => { registry with operators := (registry.operators.answer request).2 }

/-- The registry behind requests one after the other, from an empty one on. -/
def session (requests : List RegistryRequest) : Registry :=
  requests.foldl handle empty

/-- The rules for expressions whose requests succeed in a session. -/
def acceptedExprs (requests : List RegistryRequest) : List ExprRule :=
  RuleTable.empty.accepted (requests.filterMap RegistryRequest.expr?)

/-- The rules for operators whose requests succeed in a session. -/
def acceptedOperators (requests : List RegistryRequest) : List OperatorRule :=
  RuleTable.empty.accepted (requests.filterMap RegistryRequest.operator?)

theorem foldl_handle (registry : Registry) (requests : List RegistryRequest) :
    requests.foldl handle registry =
      ⟨registry.exprs.session (requests.filterMap RegistryRequest.expr?),
        registry.operators.session (requests.filterMap RegistryRequest.operator?)⟩ := by
  induction requests generalizing registry with
  | nil => rfl
  | cons request rest ih =>
      rw [List.foldl_cons, ih]
      cases request with
      | expr request => rfl
      | operator request => rfl

theorem session_eq (requests : List RegistryRequest) :
    session requests =
      ⟨.ofList (acceptedExprs requests), .ofList (acceptedOperators requests)⟩ := by
  rw [session, foldl_handle, RuleTable.session_eq_foldl, RuleTable.session_eq_foldl]
  rfl

/-- The rows of the rules that no later one of their class displaces. -/
def lastingDocs (exprs : List ExprRule) (operators : List OperatorRule) : List RuleDoc :=
  ((RuleTable.lasting exprs).map (·.spec) ++ (RuleTable.lasting operators).map (·.spec)).map
    RuleDoc.ofSpec

theorem lastingDocs_perm {exprs otherExprs : List ExprRule}
    {operators otherOperators : List OperatorRule}
    (sameExprs : (RuleTable.lasting exprs).Perm (RuleTable.lasting otherExprs))
    (sameOperators : (RuleTable.lasting operators).Perm (RuleTable.lasting otherOperators)) :
    (lastingDocs exprs operators).Perm (lastingDocs otherExprs otherOperators) :=
  ((sameExprs.map _).append (sameOperators.map _)).map _

theorem docs_ofList_perm (exprs : List ExprRule) (operators : List OperatorRule) :
    (docs ⟨.ofList exprs, .ofList operators⟩).Perm (lastingDocs exprs operators) := by
  have listed := (RuleTable.specs_ofList_perm exprs).append
    (RuleTable.specs_ofList_perm operators)
  exact (List.mergeSort_perm ..).trans (listed.map RuleDoc.ofSpec)

/-- The rows stand under the keys that switch their rules. -/
theorem keys_of_docs_perm {docs : List RuleDoc} {exprs : List ExprRule}
    {operators : List OperatorRule} (listed : docs.Perm (lastingDocs exprs operators)) :
    (docs.map RuleDoc.key).Perm
      ((RuleTable.lasting exprs).map (·.spec.key) ++
        (RuleTable.lasting operators).map (·.spec.key)) := by
  have keys := listed.map RuleDoc.key
  simp only [lastingDocs, List.map_append, List.map_map] at keys
  exact keys

theorem docs_sorted (registry : Registry) :
    registry.docs.Pairwise fun doc later => doc.key ≤ later.key := by
  have transitive : ∀ a b c : RuleDoc, decide (a.key ≤ b.key) = true →
      decide (b.key ≤ c.key) = true → decide (a.key ≤ c.key) = true := by
    intro a b c below above
    exact decide_eq_true (String.le_trans (of_decide_eq_true below) (of_decide_eq_true above))
  have total : ∀ a b : RuleDoc, (decide (a.key ≤ b.key) || decide (b.key ≤ a.key)) = true := by
    intro a b
    simpa using String.le_total a.key b.key
  exact (List.pairwise_mergeSort transitive total _).imp of_decide_eq_true

/-- Rows that keys tell apart stand in one order only. -/
theorem docs_eq_of_perm {registry other : Registry} (order : other.docs.Perm registry.docs)
    (distinct : (registry.docs.map RuleDoc.key).Nodup) : other.docs = registry.docs := by
  refine order.eq_of_pairwise ?_ other.docs_sorted registry.docs_sorted
  intro doc later member laterMember below above
  exact List.inj_on_of_nodup_map distinct (order.mem_iff.mp member) laterMember
    (String.le_antisymm below above)

/-- Behind every session the tables of a registry find the last accepted rule of a class, return it
when it is replaced, refuse a class that they have and count the classes, and the documentation has
one row for each rule that no later one of its class displaced, under the key of that rule and in
the order of keys. When keys tell these rows apart, all sessions that leave the same rules, in
whatever order they were registered, have the same documentation. -/
theorem session_records (requests : List RegistryRequest) :
    (session requests).exprs.Records (acceptedExprs requests) ∧
      (session requests).operators.Records (acceptedOperators requests) ∧
      (session requests).docs.Perm
        (lastingDocs (acceptedExprs requests) (acceptedOperators requests)) ∧
      ((session requests).docs.map RuleDoc.key).Perm
        ((RuleTable.lasting (acceptedExprs requests)).map (·.spec.key) ++
          (RuleTable.lasting (acceptedOperators requests)).map (·.spec.key)) ∧
      (session requests).docs.Pairwise (fun doc later => doc.key ≤ later.key) ∧
      ∀ others : List RegistryRequest,
        (RuleTable.lasting (acceptedExprs others)).Perm
          (RuleTable.lasting (acceptedExprs requests)) →
        (RuleTable.lasting (acceptedOperators others)).Perm
          (RuleTable.lasting (acceptedOperators requests)) →
        ((session requests).docs.map RuleDoc.key).Nodup →
          (session others).docs = (session requests).docs := by
  have listed : ∀ requests, (session requests).docs.Perm
      (lastingDocs (acceptedExprs requests) (acceptedOperators requests)) := by
    intro requests
    rw [session_eq]
    exact docs_ofList_perm _ _
  refine ⟨?_, ?_, listed requests, keys_of_docs_perm (listed requests), docs_sorted _, ?_⟩
  · rw [session_eq]
    exact RuleTable.records_ofList _
  · rw [session_eq]
    exact RuleTable.records_ofList _
  · intro others sameExprs sameOperators distinct
    refine docs_eq_of_perm ?_ distinct
    calc (session others).docs
      _ ~ lastingDocs (acceptedExprs others) (acceptedOperators others) := listed others
      _ ~ lastingDocs (acceptedExprs requests) (acceptedOperators requests) :=
          lastingDocs_perm sameExprs sameOperators
      _ ~ (session requests).docs := (listed requests).symm

end Registry

end GpuPlacement
