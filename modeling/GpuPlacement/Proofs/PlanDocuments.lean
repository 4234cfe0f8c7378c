import GpuPlacement.Host.Document
import GpuPlacement.Proofs.CarriedValues
import GpuPlacement.Proofs.Signatures
/-!
Plans come back from their documents. For each type what is written is read, field by field, and the
fields that are left out are those that have their defaults. Data that are no numbers are the only
ones that no document holds.
-/
namespace GpuPlacement

open Json (Reads)

namespace DataType

/-- Whether a decimal has a precision of one byte and a scale of one signed byte. Other types have
neither. -/
def hasByteParts : DataType → Bool
  | .decimal precision scale => precision ≤ 255 && -128 ≤ scale && scale ≤ 127
  | _ => true

/-- Types all of whose decimals are made up of bytes. -/
def BytesSuffice (type : DataType) : Prop :=
  ∀ node ∈ type.nodes, node.type.hasByteParts = true

instance (type : DataType) : Decidable type.BytesSuffice :=
  inferInstanceAs (Decidable (∀ node ∈ type.nodes, node.type.hasByteParts = true))

theorem BytesSuffice.inner {type part : DataType} (bytes : type.BytesSuffice)
    (within : part ∈ type.inner) : part.BytesSuffice := by
  intro node among
  refine bytes (node.within type) ?_
  rw [nodes_eq]
  exact .tail _ (List.mem_map_of_mem (List.mem_flatMap_of_mem within among))

theorem BytesSuffice.self {type : DataType} (bytes : type.BytesSuffice) :
    type.hasByteParts = true := by
  refine bytes ⟨[], type⟩ ?_
  rw [nodes_eq]
  exact .head _

theorem toJsonAll_eq_map (types : List DataType) : toJsonAll types = types.map toJson :=
  eq_map_of_cons rfl (fun _ _ => rfl) types

theorem listOfJson?_succ (nesting : Nat) (json : Json) :
    listOfJson? (nesting + 1) json = json.listOf? (ofJson? nesting) := by
  cases json <;> rfl

theorem reads_list {types : List DataType}
    (each : ∀ type ∈ types, Reads ofJson? type.toJson type) :
    Reads listOfJson? (.array (types.map toJson)) types :=
  Reads.list each listOfJson?_succ

theorem reads_decimalParts {precision : Nat} {scale : Int}
    (bytes : (DataType.decimal precision scale).hasByteParts = true) :
    Reads (fun inside json => if inside = 0 then none else decimalOfJson? json)
      (.objectOf [("precision", some (.nat precision)), ("scale", some (.int scale))])
      (.decimal precision scale) := by
  simp only [hasByteParts, Bool.and_eq_true, decide_eq_true_eq] at bytes
  obtain ⟨⟨precise, low⟩, high⟩ := bytes
  apply Reads.record ["precision", "scale"] rfl (by decide)
  intro inside carried fields found held
  simp only [List.forall_mem_cons] at held
  obtain ⟨heldPrecision, heldScale, -⟩ := held
  have natural : (0 : Int) ≤ precision ∧ (precision : Int) ≤ 255 := by omega
  refine (if_neg (Nat.succ_ne_zero _)).trans ?_
  simp only [decimalOfJson?, found, Option.bind_eq_bind, Option.bind_some]
  rw [heldPrecision.required? (Json.reads_integer natural.1 natural.2), Option.bind_some,
    heldScale.required? (Json.reads_integer low high)]
  rfl

theorem reads_pair {key value : DataType}
    (each : ∀ type ∈ [key, value], Reads ofJson? type.toJson type) :
    Reads (fun inside json =>
        match listOfJson? inside json with
        | some [key, value] => some (DataType.map key value)
        | _ => none)
      (.array [key.toJson, value.toJson]) (.map key value) := by
  intro nesting carried came shallow
  have both := reads_list each nesting carried came shallow
  simp only [both]

/-- A type is read when its decimals are made up of bytes. -/
theorem reads (type : DataType) (bytes : type.BytesSuffice) :
    Reads ofJson? type.toJson type := by
  induction type using DataType.induction with
  | node type ih =>
      have within := fun part among => ih part among (bytes.inner among)
      cases type with
      | decimal precision scale =>
          exact (reads_decimalParts bytes.self).alternative fun _ _ => rfl
      | array element =>
          exact ((within element (.head _)).map DataType.array).alternative fun _ _ => rfl
      | map key value => exact (reads_pair within).alternative fun _ _ => rfl
      | struct fields =>
          rw [toJson, toJsonAll_eq_map]
          exact ((reads_list within).map DataType.struct).alternative fun _ _ => rfl
      | _ =>
          intro nesting carried came shallow
          cases came
          rw [ofJson?]
          rfl

end DataType

namespace Scalar

/-- Whether a value is no floating datum, or one that is a number. -/
def isFinite : Scalar → Bool
  | .float word => word.datum.isFinite
  | .double word => word.datum.isFinite
  | _ => true

theorem reads (scalar : Scalar) (finite : scalar.isFinite = true)
    (bytes : scalar.type.BytesSuffice) : Reads ofJson? scalar.toJson scalar := by
  cases scalar with
  | null type => exact ((type.reads bytes).map Scalar.null).alternative fun _ _ => rfl
  | boolean value => exact ((Json.reads_bool value).map Scalar.boolean).alternative fun _ _ => rfl
  | byte value =>
      exact (Json.reads_ofInt Scalar.byte value.minValue_le_toInt value.toInt_le
        value.ofInt_toInt).alternative fun _ _ => rfl
  | short value =>
      exact (Json.reads_ofInt Scalar.short value.minValue_le_toInt value.toInt_le
        value.ofInt_toInt).alternative fun _ _ => rfl
  | int value =>
      exact (Json.reads_ofInt Scalar.int value.minValue_le_toInt value.toInt_le
        value.ofInt_toInt).alternative fun _ _ => rfl
  | long value =>
      exact (Json.reads_ofInt Scalar.long value.minValue_le_toInt value.toInt_le
        value.ofInt_toInt).alternative fun _ _ => rfl
  | float word => exact ((Json.reads_single finite).map Scalar.float).alternative fun _ _ => rfl
  | double word => exact ((Json.reads_double finite).map Scalar.double).alternative fun _ _ => rfl
  | string value => exact ((Json.reads_text value).map Scalar.string).alternative fun _ _ => rfl
  | date days =>
      exact (Json.reads_ofInt Scalar.date days.minValue_le_toInt days.toInt_le
        days.ofInt_toInt).alternative fun _ _ => rfl
  | timestamp micros =>
      exact (Json.reads_ofInt Scalar.timestamp micros.minValue_le_toInt micros.toInt_le
        micros.ofInt_toInt).alternative fun _ _ => rfl

end Scalar

namespace ParamValue

def isFinite : ParamValue → Bool
  | .float word => word.datum.isFinite
  | .scalar value => value.isFinite
  | _ => true

/-- The type that a parameter is, or that its literal has. -/
def types : ParamValue → List DataType
  | .type value => [value]
  | .scalar value => [value.type]
  | _ => []

theorem reads_names (items : List String) :
    Reads (fun inside json => if inside = 0 then none else json.listOf? Json.text?)
      (.array (items.map Json.text)) items :=
  Reads.list (fun item _ => Json.reads_text item) fun _ _ => rfl

theorem reads (value : ParamValue) (finite : value.isFinite = true)
    (bytes : ∀ type ∈ value.types, type.BytesSuffice) : Reads ofJson? value.toJson value := by
  cases value with
  | bool value => exact ((Json.reads_bool value).map ParamValue.bool).alternative fun _ _ => rfl
  | int value =>
      exact (Json.reads_ofInt ParamValue.int value.minValue_le_toInt value.toInt_le
        value.ofInt_toInt).alternative fun _ _ => rfl
  | float word => exact ((Json.reads_double finite).map ParamValue.float).alternative fun _ _ => rfl
  | text value => exact ((Json.reads_text value).map ParamValue.text).alternative fun _ _ => rfl
  | type type =>
      have read := type.reads (bytes type (.head _))
      exact (read.map ParamValue.type).alternative fun _ _ => rfl
  | scalar value =>
      have read := value.reads finite (bytes value.type (.head _))
      exact (read.map ParamValue.scalar).alternative fun _ _ => rfl
  | list items =>
      -- The names are refused where their array could no longer open.
      refine ((reads_names items).map ParamValue.list).alternative fun inside other => ?_
      rw [ofJson?]
      split <;> rfl

end ParamValue

namespace Params

/-- The types that parameters name or that their literals have. -/
def types (params : Params) : List DataType :=
  params.values.flatMap ParamValue.types

theorem reads {params : Params} (finite : ∀ value ∈ params.values, value.isFinite = true)
    (bytes : ∀ type ∈ params.types, type.BytesSuffice) : Reads ofJson? params.toJson params := by
  refine Reads.dict (fun entry among => ?_) fun _ _ => rfl
  have stored := List.mem_map_of_mem (f := Prod.snd) among
  exact entry.2.reads (finite _ stored) fun type named =>
    bytes type (List.mem_flatMap_of_mem stored named)

/-- Parameters are left out when there are none. -/
theorem withDefault?_of_hold {fields : Json.Fields} {inside : Nat} {params : Params}
    (held : fields.Hold inside "params" params.toJsonUnlessEmpty)
    (reads : Reads ofJson? params.toJson params) :
    fields.withDefault? "params" .empty (ofJson? inside) = some params := by
  rw [toJsonUnlessEmpty] at held
  split at held
  -- What is left out is read as no parameters, and it was left out because there are none.
  next empty =>
    have same : params = .empty := by
      apply Dict.ext_get?
      intro key
      rw [Dict.get?, List.isEmpty_iff.mp empty]
      rfl
    rw [same]
    exact held.default
  next => exact held.withDefault? reads

end Params

namespace Column

theorem toJson_eq (column : Column) :
    column.toJson = .objectOf [("name", some (.text column.name)),
      ("data_type", some column.type.toJson), ("nullable", some (.bool column.nullable))] := rfl

theorem reads (column : Column) (bytes : column.type.BytesSuffice) :
    Reads ofJson? column.toJson column := by
  rw [toJson_eq]
  apply Reads.record fieldNames rfl (by decide)
  intro inside carried fields found held
  simp only [List.forall_mem_cons] at held
  obtain ⟨name, type, nullable, -⟩ := held
  simp only [ofJson?, found, Option.bind_eq_bind, Option.bind_some]
  rw [name.required? (Json.reads_text _), Option.bind_some,
    type.required? (column.type.reads bytes), Option.bind_some,
    nullable.withDefault? (Json.reads_bool _)]
  rfl

theorem reads_list {columns : List Column}
    (bytes : ∀ type ∈ columns.map Column.type, type.BytesSuffice) :
    Reads listOfJson? (.array (columns.map toJson)) columns :=
  Reads.list (fun column member => column.reads (bytes _ (List.mem_map_of_mem member)))
    fun _ _ => rfl

end Column

/-- The parameters of a node. -/
def HostPart.params : HostPart → Params
  | .operator plan => plan.params
  | .expr node => node.params

/-- The types that a node names: those of its columns or its own one, and those of its
parameters. -/
def HostPart.types : HostPart → List DataType
  | .operator plan => plan.output.map Column.type ++ Params.types plan.params
  | .expr node => node.type :: Params.types node.params

/-- A node that a document can hold. -/
structure HostPart.Documentable (part : HostPart) : Prop where
  finite : ∀ value ∈ part.params.values, value.isFinite = true
  bytes : ∀ type ∈ part.types, type.BytesSuffice

namespace HostExpr

theorem toJsonAll_eq_map (exprs : List HostExpr) : toJsonAll exprs = exprs.map toJson :=
  eq_map_of_cons rfl (fun _ _ => rfl) exprs

theorem ofJson?_null (nesting : Nat) : ofJson? nesting .null = none := by
  cases nesting <;> rfl

theorem reads_list {exprs : List HostExpr}
    (each : ∀ expr ∈ exprs, Reads ofJson? expr.toJson expr) :
    Reads listOfJson? (.array (exprs.map toJson)) exprs :=
  Reads.list each fun _ _ => rfl

theorem reads (expr : HostExpr)
    (documentable : ∀ node ∈ expr.subtrees, (HostPart.expr node).Documentable) :
    Reads ofJson? expr.toJson expr := by
  induction expr with
  | node className type nullable name params children ih =>
      rw [subtrees_eq, List.forall_mem_cons, List.forall_mem_flatMap] at documentable
      obtain ⟨⟨finite, bytes⟩, below⟩ := documentable
      obtain ⟨typeBytes, paramBytes⟩ := List.forall_mem_cons.mp bytes
      rw [toJson, toJsonAll_eq_map]
      apply Reads.record fieldNames rfl (by decide)
      intro inside carried fields found held
      simp only [List.forall_mem_cons] at held
      obtain ⟨heldClass, heldType, heldNullable, heldName, heldParams, heldChildren, -⟩ := held
      simp only [ofJson?, found, Option.bind_eq_bind, Option.bind_some]
      rw [heldClass.required? (Json.reads_text _), Option.bind_some,
        heldType.required? (type.reads typeBytes), Option.bind_some,
        heldNullable.withDefault? (Json.reads_bool _), Option.bind_some,
        heldName.optional (fun name _ => Json.reads_text name) fun _ => rfl, Option.bind_some,
        Params.withDefault?_of_hold heldParams (Params.reads finite paramBytes), Option.bind_some,
        heldChildren.list (reads_list fun child member => ih child member (below child member))]
      rfl

end HostExpr

namespace HostPlan

theorem toJsonAll_eq_map (plans : List HostPlan) : toJsonAll plans = plans.map toJson :=
  eq_map_of_cons rfl (fun _ _ => rfl) plans

theorem reads_list {plans : List HostPlan}
    (each : ∀ plan ∈ plans, Reads ofJson? plan.toJson plan) :
    Reads listOfJson? (.array (plans.map toJson)) plans :=
  Reads.list each fun _ _ => rfl

theorem reads (plan : HostPlan) (documentable : ∀ part ∈ plan.parts, part.Documentable) :
    Reads ofJson? plan.toJson plan := by
  induction plan with
  | node className output expressions partitioning params children ih =>
      rw [parts_eq, List.forall_mem_append, List.forall_mem_cons, List.forall_mem_map,
        List.forall_mem_flatMap, List.forall_mem_flatMap, allExpressions,
        List.forall_mem_append] at documentable
      obtain ⟨⟨⟨finite, bytes⟩, exprs, partition⟩, below⟩ := documentable
      obtain ⟨columnBytes, paramBytes⟩ := List.forall_mem_append.mp bytes
      have arguments := HostExpr.reads_list fun expr member => expr.reads (exprs expr member)
      have inputs := reads_list fun child member => ih child member (below child member)
      rw [toJson, toJsonAll_eq_map, HostExpr.toJsonAll_eq_map]
      apply Reads.record fieldNames rfl (by decide)
      intro inside carried fields found held
      simp only [List.forall_mem_cons] at held
      obtain ⟨heldClass, heldOutput, heldExprs, heldPartition, heldParams, heldChildren, -⟩ := held
      simp only [ofJson?, found, Option.bind_eq_bind, Option.bind_some]
      rw [heldClass.required? (Json.reads_text _), Option.bind_some,
        heldOutput.list (Column.reads_list columnBytes), Option.bind_some,
        heldExprs.list arguments, Option.bind_some,
        heldPartition.optional (fun expr given => expr.reads (partition expr (by simp [given])))
          HostExpr.ofJson?_null, Option.bind_some,
        Params.withDefault?_of_hold heldParams (Params.reads finite paramBytes), Option.bind_some,
        heldChildren.list inputs]
      rfl

/-- Plans whose parameters and literals hold no floating datum that is no number. -/
def Finite (plan : HostPlan) : Prop :=
  ∀ part ∈ plan.parts, ∀ value ∈ part.params.values, value.isFinite = true

/-- Plans whose decimals are all made up of bytes, as those of the host engine are. -/
def BytesSuffice (plan : HostPlan) : Prop :=
  ∀ part ∈ plan.parts, ∀ type ∈ part.types, type.BytesSuffice

instance (plan : HostPlan) : Decidable plan.Finite :=
  inferInstanceAs
    (Decidable (∀ part ∈ plan.parts, ∀ value ∈ part.params.values, value.isFinite = true))

instance (plan : HostPlan) : Decidable plan.BytesSuffice :=
  inferInstanceAs (Decidable (∀ part ∈ plan.parts, ∀ type ∈ part.types, type.BytesSuffice))

/-- A valid plan whose floating values are all numbers comes back from its JSON value: from the
value as a reader holds it, from all that it may come as, and from every text of one of these, as
long as the value is no deeper than the limit of nesting. -/
theorem document_rereads {plan : HostPlan} (valid : plan.validate = .ok ())
    (finite : plan.Finite) (bytes : plan.BytesSuffice) :
    (∀ nesting, plan.toJson.depth ≤ nesting → ofJson? nesting plan.toJson.held = some plan) ∧
    (∀ nesting json, plan.toJson.Carried json → plan.toJson.depth ≤ nesting →
      ofJson? nesting json = some plan) ∧
    ∀ text json, Json.read? text = some json → plan.toJson.Carried json →
      plan.toJson.depth ≤ Json.nestingLimit → ofDocument text = .ok plan := by
  have read : Reads ofJson? plan.toJson plan :=
    plan.reads fun part among => ⟨finite part among, bytes part among⟩
  refine ⟨fun nesting => read nesting _ (Json.carried_held _), read, ?document⟩
  intro text json parsed came shallow
  rw [ofDocument, parsed, Option.bind_some, read _ json came shallow]
  dsimp only
  rw [valid]
  rfl

/-- A scan with a literal one half among its parameters. -/
def halfScan : HostPlan :=
  ⟨⟨"S"⟩, [], [], none, Dict.empty.insert "f" (.scalar (.float (.ofQuotient false 1 2))), []⟩

/-- An exchange of the scan, with a column of a scale below zero and a partitioning that has
parameters but no name. -/
def halfExchange : HostPlan :=
  let params := Dict.ofList [("names", ParamValue.list ["a", ""]),
    ("to", .type (.struct [.map .string .null])), ("seed", .int (-7))]
  ⟨⟨"X"⟩, [⟨"c", .decimal 38 (-2), false⟩], [], some ⟨⟨"L"⟩, .float, true, none, params, []⟩,
    .empty, [halfScan]⟩

/-- The text of the scan. -/
def halfText : String :=
  "\x7b\"class\":\"S\",\"params\":\x7b\"f\":\x7b\"scalar\":\x7b\"float\":0.5\x7d\x7d\x7d\x7d"

theorem document_rereads_half :
    ofJson? 8 halfExchange.toJson.held = some halfExchange ∧ ofDocument halfText = .ok halfScan := by
  constructor
  · exact (document_rereads (by decide +kernel) (by decide +kernel) (by decide +kernel)).1 8
      (by decide +kernel)
  · exact (document_rereads (by decide +kernel) (by decide +kernel) (by decide +kernel)).2.2 _ _
      rfl (Json.carried_held _) (by decide +kernel)

end HostPlan

end GpuPlacement
