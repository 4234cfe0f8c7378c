import GpuPlacement.Proofs.Remedies
/-!
Reasons that name a remedy. The text of such a reason determines the remedy, and no other text can
be mistaken for one, whatever names of the user it is made of.
-/
namespace GpuPlacement

/-- The reasons that tell the user to set a key to a value. -/
inductive Advises : (reason key value : String) → Prop
  | exprRule {rule : ExprRule} : rule ∈ Builtin.exprRules →
      Advises rule.spec.disabledReason rule.spec.key "true"
  | operatorRule {rule : OperatorRule} : rule ∈ Builtin.operatorRules →
      Advises rule.spec.disabledReason rule.spec.key "true"
  | castFloatToString {source : DataType} : source.isFloating = true → Advises
    (s!"casting {source.name} to string can produce different results than the host; "
      ++ "set accel.sql.castFloatToString.enabled to true to enable")
    "accel.sql.castFloatToString.enabled" "true"
  | castStringToFloat {target : DataType} : target.isFloating = true → Advises
    (s!"casting string to {target.name} can produce different results than the host; "
      ++ "set accel.sql.castStringToFloat.enabled to true to enable")
    "accel.sql.castStringToFloat.enabled" "true"
  | variableFloatAgg {rule : ExprRule} : rule ∈ Builtin.exprRules → Advises
    (s!"{rule.spec.short} over floating point input can produce different results depending on the "
      ++ "order of aggregation; set accel.sql.variableFloatAgg.enabled to true to enable")
    "accel.sql.variableFloatAgg.enabled" "true"
  | nans {rule : ExprRule} : rule ∈ Builtin.exprRules → Advises
    (s!"{rule.spec.short} over floating point input does not order NaN like the host; "
      ++ "set accel.sql.hasNans to false if the data contains no NaN")
    "accel.sql.hasNans" "false"
  | join : Advises
    ("hash joins have been disabled by configuration; "
      ++ "set accel.sql.join.enabled to true to enable")
    "accel.sql.join.enabled" "true"
  | format {format : String} : format ∈ scanFormats → Advises
    (s!"reading {format} files has been disabled by configuration; "
      ++ s!"set accel.sql.format.{format}.enabled to true to enable")
    s!"accel.sql.format.{format}.enabled" "true"

/-- What a text asks for that goes on with `set key to value` behind its first semicolon. -/
def remedy (text : List Char) : List Char × List Char :=
  let request := (text.dropWhile (· ≠ ';')).drop 6
  let value := (request.dropWhile (· ≠ ' ')).drop 4
  (request.takeWhile (· ≠ ' '), value.takeWhile (· ≠ ' '))

theorem forall_ne_of_notMem {mark : Char} {word : List Char} (free : mark ∉ word) :
    ∀ c ∈ word, decide (c ≠ mark) = true := by
  intro c member
  rw [decide_eq_true_eq]
  rintro rfl
  exact free member

theorem remedy_append {start : String} (closed : ';' ∉ start.toList) (rest : String) :
    remedy (start ++ rest).toList = remedy rest.toList := by
  rw [remedy, remedy, String.toList_append,
    List.dropWhile_append_of_pos (forall_ne_of_notMem closed)]

theorem remedy_request {key : String} (word : ' ' ∉ key.toList) (rest : String) :
    remedy ("; set " ++ (key ++ (" to true " ++ rest))).toList = (key.toList, "true".toList) := by
  have kept := forall_ne_of_notMem word
  simp only [remedy, String.toList_append, String.reduceToList, List.cons_append, List.nil_append]
  rw [List.dropWhile_cons_of_neg (by decide)]
  simp only [List.drop_succ_cons, List.drop_zero]
  rw [List.takeWhile_append_of_pos kept, List.dropWhile_append_of_pos kept,
    List.takeWhile_cons_of_neg (by decide), List.dropWhile_cons_of_neg (by decide)]
  simp

/-- The first two characters of a text. -/
def opening (text : String) : List Char :=
  text.toList.take 2

/-- The last two characters of a text, the last one first. -/
def closing (text : String) : List Char :=
  text.toList.reverse.take 2

/-- How reasons start that end in a name of the user and ask for nothing. -/
def plainOpenings : List (List Char) :=
  [['n', 'o'], ['o', 'n'], ['a', 'g'], ['t', 'h'], ['f', 'i'], ['c', 's']]

/-- How all other reasons end that ask for nothing, read from the end. -/
def plainClosings : List (List Char) :=
  [['e', 'd'], ['d', 'e'], ['8', '1'], ['t', 'u'], ['d', 'n'], ['t', 'n'], ['h', 'c'], ['s', 'n'],
    ['n', 'o'], ['r', 'e'], ['g', 'n'], ['t', 'a'], ['o', 'o']]

/-- A text that cannot be mistaken for one that names a remedy. -/
def Plain (text : String) : Prop :=
  opening text ∈ plainOpenings ∨ closing text ∈ plainClosings

theorem opening_append {start : String} (long : (opening start).length = 2) (rest : String) :
    opening (start ++ rest) = opening start := by
  rw [opening, List.length_take] at long
  rw [opening, opening, String.toList_append, List.take_append_of_le_length (by omega)]

theorem closing_append (start : String) {ending : String} (long : (closing ending).length = 2) :
    closing (start ++ ending) = closing ending := by
  rw [closing, List.length_take] at long
  rw [closing, closing, String.toList_append, List.reverse_append,
    List.take_append_of_le_length (by omega)]

theorem closing_mem (start : String) {ending : String} (h : closing ending ∈ plainClosings) :
    closing (start ++ ending) ∈ plainClosings := by
  have long : ∀ text ∈ plainClosings, text.length = 2 := by decide
  exact closing_append start (long _ h) ▸ h

/-!
Texts in the source are compared by their characters: a text in quotes is `String.ofList` of them,
and to decide a property of a short list takes no decoding.
-/

section

variable {chars : List Char}

theorem opening_ofList : opening (.ofList chars) = chars.take 2 := by
  rw [opening, String.toList_ofList]

theorem closing_ofList : closing (.ofList chars) = chars.reverse.take 2 := by
  rw [closing, String.toList_ofList]

theorem plain_of_opening (h : chars.take 2 ∈ plainOpenings) (rest : String) :
    Plain (.ofList chars ++ rest) := by
  have long : ∀ text ∈ plainOpenings, text.length = 2 := by decide
  rw [← opening_ofList] at h
  exact .inl (opening_append (long _ h) rest ▸ h)

theorem plain_of_closing (start : String) (h : chars.reverse.take 2 ∈ plainClosings) :
    Plain (start ++ .ofList chars) :=
  .inr (closing_mem start (closing_ofList ▸ h))

theorem plain_ofList (h : chars.reverse.take 2 ∈ plainClosings) : Plain (.ofList chars) :=
  .inr (closing_ofList ▸ h)

theorem not_opening_mem (long : (chars.take 2).length = 2) (h : chars.take 2 ∉ plainOpenings)
    (rest : String) : opening (.ofList chars ++ rest) ∉ plainOpenings := by
  rw [← opening_ofList] at long h
  rwa [opening_append long]

theorem not_closing_mem (start : String) (long : (chars.reverse.take 2).length = 2)
    (h : chars.reverse.take 2 ∉ plainClosings) :
    closing (start ++ .ofList chars) ∉ plainClosings := by
  rw [← closing_ofList] at long h
  rwa [closing_append start long]

theorem not_closing_paren (start : String) : closing (start ++ ")") ∉ plainClosings := by
  have last : closing (start ++ ")") = ')' :: start.toList.reverse.take 1 := by
    simp [closing]
  simp [last, plainClosings]

theorem notMem_ofList {mark : Char} (h : mark ∉ chars) :
    mark ∉ (String.ofList chars).toList := by
  rwa [String.toList_ofList]

end

theorem remedy_ofList {first second key value : List Char}
    (h : remedy (first ++ second) = (key, value)) :
    remedy (String.ofList first ++ String.ofList second).toList =
      ((String.ofList key).toList, (String.ofList value).toList) := by
  simp only [String.toList_append, String.toList_ofList, h]

theorem remedy_behind {start : String} {first second key value : List Char}
    (closed : ';' ∉ start.toList) (h : remedy (first ++ second) = (key, value)) :
    remedy (start ++ String.ofList first ++ String.ofList second).toList =
      ((String.ofList key).toList, (String.ofList value).toList) := by
  rw [String.append_assoc, remedy_append closed, remedy_ofList h]

theorem not_plain_between {first last : List Char} (long : (first.take 2).length = 2)
    (opens : first.take 2 ∉ plainOpenings) (name text : String)
    (far : (last.reverse.take 2).length = 2) (closes : last.reverse.take 2 ∉ plainClosings) :
    ¬ Plain (.ofList first ++ name ++ text ++ .ofList last) := by
  refine not_or.mpr ⟨?_, not_closing_mem _ far closes⟩
  simp only [String.append_assoc]
  exact not_opening_mem long opens _

theorem notMem_append {mark : Char} {text other : String} (h : mark ∉ text.toList)
    (also : mark ∉ other.toList) : mark ∉ (text ++ other).toList := by
  rw [String.toList_append, List.mem_append, not_or]
  exact ⟨h, also⟩

/-- A name that stands at the start of reasons: it is one word, and no plain reason starts so. -/
structure LeadingName (name : String) : Prop where
  long : (opening name).length = 2
  opens : opening name ∉ plainOpenings
  closed : ';' ∉ name.toList
  word : ' ' ∉ name.toList

theorem LeadingName.not_plain {name : String} (h : LeadingName name) (text : String)
    {last : List Char} (far : (last.reverse.take 2).length = 2)
    (closes : last.reverse.take 2 ∉ plainClosings) : ¬ Plain (name ++ text ++ .ofList last) := by
  refine not_or.mpr ⟨?_, not_closing_mem _ far closes⟩
  rw [String.append_assoc, opening_append h.long]
  exact h.opens

theorem ClassName.short_qualify (package : String) {name : String} (plain : '.' ∉ name.toList) :
    (qualify package name).short = name := by
  have behind : (qualify package name).name.toList.reverse =
      name.toList.reverse ++ '.' :: package.toList.reverse := by
    rw [qualify, if_neg (by simp [plain])]
    simp [toString]
  rw [short, behind,
    List.takeWhile_append_of_pos (forall_ne_of_notMem (mt List.mem_reverse.mp plain)),
    List.takeWhile_cons_of_neg (by decide), List.append_nil, List.reverse_reverse,
    String.ofList_toList]

theorem leadingName_qualify {package : String} {chars : List Char}
    (long : (chars.take 2).length = 2) (opens : chars.take 2 ∉ plainOpenings)
    (plain : '.' ∉ chars) (closed : ';' ∉ chars) (word : ' ' ∉ chars) :
    LeadingName (ClassName.qualify package (.ofList chars)).short := by
  rw [ClassName.short_qualify package (notMem_ofList plain)]
  constructor
  case long => rwa [opening_ofList]
  case opens => rwa [opening_ofList]
  case closed => exact notMem_ofList closed
  case word => exact notMem_ofList word

namespace Builtin

theorem leadingName_exprRules : ∀ rule ∈ exprRules, LeadingName rule.spec.short := by
  simp only [exprRules, leafRules, arithmeticRules, predicateRules, conversionRules, textRules,
    mathAndTimeRules, aggregateRules, partitioningRules, List.cons_append, List.nil_append,
    List.forall_mem_cons, numericRule, predicateRule, commonRule, ExprRule.expression,
    ExprRule.partitioning, ExprRule.ofClass, RuleSpec.ofClass, Rule.withInputs, Rule.withOutput,
    Rule.withCheck, Rule.withConverter, Rule.withIncompatibility, RuleSpec.short,
    ClassName.expression]
  and_intros
  all_goals first
  | exact List.forall_mem_nil _
  | exact leadingName_qualify (by decide) (by decide) (by decide) (by decide) (by decide)

theorem leadingName_operatorRules : ∀ rule ∈ operatorRules, LeadingName rule.spec.short := by
  simp only [operatorRules, rowRules, exchangeRules, joinRules, batchRules, List.cons_append,
    List.nil_append, List.forall_mem_cons, columnarRule, OperatorRule.operator, OperatorRule.scan,
    OperatorRule.ofClass, RuleSpec.ofClass, Rule.withOutput, Rule.withCheck, Rule.withConverter,
    Rule.asExchange, Rule.withOffByDefault, RuleSpec.short, ClassName.operator]
  and_intros
  all_goals first
  | exact List.forall_mem_nil _
  | exact leadingName_qualify (by decide) (by decide) (by decide) (by decide) (by decide)

end Builtin

theorem leadingName_label (kind : RuleKind) : LeadingName (lowerAscii kind.label) := by
  cases kind <;> constructor <;> decide

theorem leadingName_floating {type : DataType} (floating : type.isFloating = true) :
    LeadingName type.name := by
  cases type <;> first | exact absurd floating Bool.false_ne_true | constructor <;> decide

theorem scanFormats_words : ∀ format ∈ scanFormats, ';' ∉ format.toList ∧ ' ' ∉ format.toList := by
  decide

namespace RuleSpec

variable (spec : RuleSpec)

theorem disabledReason_eq : ∃ note : String,
    spec.disabledReason =
      s!"{lowerAscii spec.kind.label} {spec.short} has been disabled by configuration; "
        ++ s!"set {spec.key} to true to enable{note}" ∧
      (note = "" ∨ ∃ text : String, note = s!" ({text})") := by
  unfold disabledReason
  cases spec.incompatibility.or spec.offByDefault with
  | none => exact ⟨"", rfl, .inl rfl⟩
  | some text => exact ⟨_, rfl, .inr ⟨text, rfl⟩⟩

theorem remedy_disabledReason (name : LeadingName spec.short) :
    remedy spec.disabledReason.toList = (spec.key.toList, "true".toList) := by
  obtain ⟨note, same, -⟩ := spec.disabledReason_eq
  have label := leadingName_label spec.kind
  have part : ' ' ∉ spec.kind.keyPart.toList := by
    cases spec.kind <;> decide
  have word : ' ' ∉ spec.key.toList :=
    notMem_append (notMem_append (notMem_append (notMem_ofList (by decide)) part)
      (notMem_ofList (by decide))) name.word
  have sentence : spec.disabledReason =
      s!"{lowerAscii spec.kind.label} {spec.short} has been disabled by configuration"
        ++ ("; set " ++ (spec.key ++ (" to true " ++ s!"to enable{note}"))) := by
    simp [same, String.ext_iff, toString]
  rw [sentence, remedy_append, remedy_request word]
  exact notMem_append (notMem_append (notMem_append label.closed (notMem_ofList (by decide)))
    name.closed) (notMem_ofList (by decide))

theorem not_plain_disabledReason : ¬ Plain spec.disabledReason := by
  obtain ⟨note, same, ending⟩ := spec.disabledReason_eq
  have label := leadingName_label spec.kind
  rw [same]
  rintro (plain | plain)
  · simp only [String.append_assoc] at plain
    exact label.opens (opening_append label.long _ ▸ plain)
  · rcases ending with rfl | ⟨text, rfl⟩
    · simp only [toString, String.append_empty, ← String.append_assoc] at plain
      exact not_closing_mem _ (by decide) (by decide) plain
    · simp only [toString, ← String.append_assoc] at plain
      exact not_closing_paren _ plain

end RuleSpec

theorem Advises.remedy {reason key value : String} (h : Advises reason key value) :
    remedy reason.toList = (key.toList, value.toList) := by
  cases h with
  | exprRule member =>
      exact RuleSpec.remedy_disabledReason _ (Builtin.leadingName_exprRules _ member)
  | operatorRule member =>
      exact RuleSpec.remedy_disabledReason _ (Builtin.leadingName_operatorRules _ member)
  | castFloatToString floating =>
      exact remedy_behind
        (notMem_append (notMem_ofList (by decide)) (leadingName_floating floating).closed)
        (by decide)
  | castStringToFloat floating =>
      exact remedy_behind
        (notMem_append (notMem_ofList (by decide)) (leadingName_floating floating).closed)
        (by decide)
  | variableFloatAgg member =>
      exact remedy_behind (Builtin.leadingName_exprRules _ member).closed (by decide)
  | nans member =>
      exact remedy_behind (Builtin.leadingName_exprRules _ member).closed (by decide)
  | join => exact remedy_ofList (by decide)
  | @format format known =>
      obtain ⟨closed, word⟩ := scanFormats_words format known
      have sentence : s!"reading {format} files has been disabled by configuration; "
          ++ s!"set accel.sql.format.{format}.enabled to true to enable" =
            s!"reading {format} files has been disabled by configuration"
              ++ ("; set " ++
                (s!"accel.sql.format.{format}.enabled" ++ (" to true " ++ "to enable"))) := by
        simp [String.ext_iff, toString]
      rw [sentence, remedy_append, remedy_request]
      · exact notMem_append (notMem_append (notMem_ofList (by decide)) word)
          (notMem_ofList (by decide))
      · exact notMem_append (notMem_append (notMem_ofList (by decide)) closed)
          (notMem_ofList (by decide))

theorem Advises.unique {reason key value other otherValue : String} (h : Advises reason key value)
    (also : Advises reason other otherValue) : other = key ∧ otherValue = value := by
  obtain ⟨keys, values⟩ := Prod.mk.inj (also.remedy.symm.trans h.remedy)
  exact ⟨String.toList_injective keys, String.toList_injective values⟩

/-- No text that asks for nothing names a remedy. -/
theorem Advises.not_plain {reason key value : String} (h : Advises reason key value) :
    ¬ Plain reason := by
  cases h with
  | exprRule => exact RuleSpec.not_plain_disabledReason _
  | operatorRule => exact RuleSpec.not_plain_disabledReason _
  | castFloatToString => exact not_plain_between (by decide) (by decide) _ _ (by decide) (by decide)
  | castStringToFloat => exact not_plain_between (by decide) (by decide) _ _ (by decide) (by decide)
  | variableFloatAgg member =>
      exact (Builtin.leadingName_exprRules _ member).not_plain _ (by decide) (by decide)
  | nans member =>
      exact (Builtin.leadingName_exprRules _ member).not_plain _ (by decide) (by decide)
  | join =>
      exact not_or.mpr ⟨not_opening_mem (by decide) (by decide) _,
        not_closing_mem _ (by decide) (by decide)⟩
  | format =>
      refine not_or.mpr ⟨?_, ?_⟩
      · simp only [String.append_assoc]
        exact not_opening_mem (by decide) (by decide) _
      · rw [← String.append_assoc]
        exact not_closing_mem _ (by decide) (by decide)

/-- What a reason asks for allows more. -/
theorem Advises.loosens {reason key value : String} (h : Advises reason key value) :
    Loosens key value := by
  have permit : ∀ entry ∈ Catalog.permits, Loosens entry.key "true" := fun _ => .permit
  simp only [Catalog.permits, List.forall_mem_cons] at permit
  obtain ⟨floatToString, stringToFloat, floatAgg, join, parquet, orc, csv, -⟩ := permit
  cases h with
  | exprRule => exact .rule (RuleSpec.isRuleKey_key _)
  | operatorRule => exact .rule (RuleSpec.isRuleKey_key _)
  | castFloatToString => exact floatToString
  | castStringToFloat => exact stringToFloat
  | variableFloatAgg => exact floatAgg
  | nans => exact .nans
  | join => exact join
  | format known =>
      simp only [scanFormats, List.mem_cons, List.not_mem_nil, or_false] at known
      rcases known with rfl | rfl | rfl
      · exact parquet
      · exact orc
      · exact csv

end GpuPlacement
