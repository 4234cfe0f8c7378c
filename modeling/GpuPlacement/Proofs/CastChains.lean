import Mathlib.Data.List.Induction
import GpuPlacement.Proofs.Agreement
import GpuPlacement.Proofs.CastModes
import GpuPlacement.Proofs.KeptTypes
/-!
Chains of casts over a literal. Conversion casts the value in turn for as long as that succeeds, and
keeps the casts from the first failure on.
-/
namespace GpuPlacement

def Config.castMode (config : Config) : CastMode :=
  if config.ansiEnabled then .ansi else .legacy

/-- The value under casts, from the innermost one outwards. -/
def HostExpr.castLiteral (value : Scalar) (casts : List HostExpr) : HostExpr :=
  casts.foldl (fun inner cast => { cast with children := [inner] }) (.literal value)

/-- The value cast to types, one after the other. -/
def Scalar.castInTurn (value : Scalar) (types : List DataType) (mode : CastMode) :
    Except CastError Scalar :=
  types.foldlM (fun reached type => reached.cast type mode) value

theorem Scalar.castInTurn_snoc (value : Scalar) (types : List DataType) (type : DataType)
    (mode : CastMode) : value.castInTurn (types ++ [type]) mode =
      (value.castInTurn types mode).bind (fun reached => reached.cast type mode) := by
  unfold castInTurn
  rw [List.foldlM_append]
  cases types.foldlM (fun reached type => reached.cast type mode) value with
  | error error => rfl
  | ok reached => exact bind_pure (reached.cast type mode)

namespace GpuExpr

/-- The casts that stay over an expression, from the innermost one outwards: a cast to the type that
there is by then is left out. -/
def keepCasts (inner : GpuExpr) (casts : List HostExpr) : GpuExpr :=
  casts.foldl (fun inner cast => if inner.type = cast.type then inner else .ofHost cast [inner])
    inner

theorem ofHost_literal (value : Scalar) : ofHost (.literal value) [] = literal value := by
  have named : (ClassName.expression "Literal").gpuName = "GpuLiteral" := by decide +kernel
  exact congrArg (fun name => { literal value with name }) named

theorem literalValue?_ofHost_cast {cast : HostExpr} (isCast : cast.className = .expression "Cast")
    (children : List GpuExpr) : (ofHost cast children).literalValue? = none := by
  have named : (ofHost cast children).name = "GpuCast" :=
    (congrArg ClassName.gpuName isCast).trans (by decide +kernel)
  rw [literalValue?, named]
  rfl

theorem literalValue?_keepCasts {inner : GpuExpr} (plain : inner.literalValue? = none)
    {casts : List HostExpr} (areCasts : ∀ cast ∈ casts, cast.className = .expression "Cast") :
    (inner.keepCasts casts).literalValue? = none := by
  induction casts generalizing inner with
  | nil => exact plain
  | cons cast rest ih =>
      obtain ⟨isCast, others⟩ := List.forall_mem_cons.mp areCasts
      refine ih ?_ others
      dsimp only
      split
      · exact plain
      · exact literalValue?_ofHost_cast isCast _

theorem literalValue?_keepCasts_of_error {value : Scalar} {mode : CastMode} {error : CastError}
    {next : HostExpr} {rest : List HostExpr} (failed : value.cast next.type mode = .error error)
    (areCasts : ∀ cast ∈ next :: rest, cast.className = .expression "Cast") :
    ((literal value).keepCasts (next :: rest)).literalValue? = none := by
  obtain ⟨isCast, others⟩ := List.forall_mem_cons.mp areCasts
  have differs : value.type ≠ next.type := by
    intro own
    rw [← own, value.cast_own] at failed
    cases failed
  have first : (literal value).keepCasts (next :: rest) =
      (ofHost next [literal value]).keepCasts rest :=
    congrArg (fun inner => keepCasts inner rest) (if_neg differs)
  rw [first]
  exact literalValue?_keepCasts (literalValue?_ofHost_cast isCast _) others

end GpuExpr

namespace ExprCheck

variable {config : Config}

/-- What conversion makes of a cast over a converted argument. -/
def castOver (config : Config) (inner : GpuExpr) (cast : HostExpr) : GpuExpr :=
  if inner.type = cast.type then inner else foldCast cast config [inner]

theorem castOver_literal (config : Config) (value : Scalar) (cast : HostExpr) :
    castOver config (.literal value) cast =
      match value.cast cast.type config.castMode with
      | .ok folded => .literal folded
      | .error _ => (GpuExpr.literal value).keepCasts [cast] := by
  have type : (GpuExpr.literal value).type = value.type := rfl
  by_cases own : value.type = cast.type
  · rw [castOver, type, if_pos own, ← own, value.cast_own]
  · have kept : (GpuExpr.literal value).keepCasts [cast] = .ofHost cast [.literal value] :=
      if_neg own
    rw [castOver, type, if_neg own, kept]
    rfl

theorem castOver_of_plain {inner : GpuExpr} (plain : inner.literalValue? = none)
    (cast : HostExpr) : castOver config inner cast = inner.keepCasts [cast] := by
  have kept : foldCast cast config [inner] = .ofHost cast [inner] := by
    simp only [foldCast, List.head?_cons, Option.bind_some, plain]
  rw [castOver, kept]
  rfl

end ExprCheck

namespace ExprDecision

variable {config : Config} {kind : RuleKind} {parent : Option HostExpr} {owner : Option HostPlan}

theorem exists_castRule : ∃ rule ∈ Builtin.exprRules, rule.spec.className = .expression "Cast" ∧
    rule.check = ExprCheck.cast ∧ rule.convert = ExprCheck.foldCast :=
  ⟨Builtin.conversionRules[2], by simp [Builtin.exprRules], rfl, rfl, rfl⟩

theorem convert_tag_literal (value : Scalar)
    (eligible : ((ofExprAt Builtin.registry kind parent owner (.literal value)).tag
      Builtin.registry config).eligible = true) :
    (((ofExprAt Builtin.registry kind parent owner (.literal value)).tag Builtin.registry
      config).convert Builtin.registry config).1 = .ok (.literal value) := by
  have isLiteral : Builtin.leafRules[0] ∈ Builtin.exprRules := by simp [Builtin.exprRules]
  have stays : ((ofExprAt Builtin.registry kind parent owner (.literal value)).tag
      Builtin.registry config).decision.noOp = false := by
    rw [Bool.eq_false_iff]
    intro marked
    obtain ⟨child, rest, given, -⟩ := sameType_of_marked marked
    cases given
  refine (convert_tag_of_stays rfl ⟨eligible, stays⟩ rfl).trans ?_
  rw [convertNode_of_mem isLiteral rfl]
  exact congrArg Except.ok (GpuExpr.ofHost_literal value)

/-- A cast is marked to be left out just where its argument has its type already. -/
theorem noOp_tag_cast {expr inner : HostExpr} (isCast : expr.className = .expression "Cast")
    (given : expr.children = [inner]) :
    ((ofExprAt Builtin.registry kind parent owner expr).tag Builtin.registry config).decision.noOp =
      decide (inner.type = expr.type) := by
  obtain ⟨rule, member, named, check, -⟩ := exists_castRule
  have found : Builtin.registry.exprs.find?
      (ofExprAt Builtin.registry kind parent owner expr).decision.node.className = some rule := by
    rw [ofExprAt_node, isCast, ← named]
    exact Builtin.find?_exprs_of_mem member
  rw [noOp_tag (ofExprAt_noOp ..) found, check]
  unfold ExprCheck.cast
  rw [context, ofExprAt_node]
  dsimp only
  rw [given]
  dsimp only
  split
  next same => rw [decide_eq_true same]; rfl
  next differs => rw [decide_eq_false differs]; rfl

/-- What conversion makes of a cast, given what it makes of the argument. -/
theorem convert_tag_cast {expr inner : HostExpr} (isCast : expr.className = .expression "Cast")
    (given : expr.children = [inner])
    (eligible : ((ofExprAt Builtin.registry kind parent owner expr).tag Builtin.registry
      config).eligible = true) :
    let argument := (ofExprAt Builtin.registry .expression (some expr) owner inner).tag
      Builtin.registry config
    argument.eligible = true ∧ ∃ gpu, (argument.convert Builtin.registry config).1 = .ok gpu ∧
      (((ofExprAt Builtin.registry kind parent owner expr).tag Builtin.registry config).convert
        Builtin.registry config).1 =
        .ok (ExprCheck.castOver config gpu expr) := by
  intro argument
  obtain ⟨result, converted⟩ := convert_tag_ok eligible
  obtain ⟨-, arguments, below, combined⟩ := ready_tag_ofExprAt.eligible_of_convert converted
  have allowed := (supported_of_eligible_tag eligible).2
  simp only [tag_children, ofExprAt_children, given, List.map_cons, List.map_nil] at below allowed
  obtain ⟨gpu, rest, rfl, done, others⟩ := List.map_eq_cons_iff.mp below.symm
  obtain rfl := List.map_eq_nil_iff.mp others
  refine ⟨allowed _ (List.mem_singleton_self _), gpu, done.symm, converted.trans ?_⟩
  have type : gpu.type = inner.type := (becomes_of_convert done.symm).type
  obtain ⟨rule, member, named, -, converts⟩ := exists_castRule
  rw [combine, noOp_tag_cast isCast given, tag_node, ofExprAt_node,
    convertNode_of_mem member (named.trans isCast.symm), converts] at combined
  rw [← combined, ExprCheck.castOver, type]
  simp only [decide_eq_true_eq]
  split <;> rfl

/-- What conversion makes of casts over a literal. -/
structure CastsFold (config : Config) (value : Scalar) (casts : List HostExpr) (gpu : GpuExpr) :
    Prop where
  folded : ∀ result, value.castInTurn (casts.map (·.type)) config.castMode = .ok result →
    gpu = .literal result
  kept : ∀ error, value.castInTurn (casts.map (·.type)) config.castMode = .error error →
    ∃ done next rest reached, casts = done ++ next :: rest ∧
      value.castInTurn (done.map (·.type)) config.castMode = .ok reached ∧
      reached.cast next.type config.castMode = .error error ∧
      gpu = (GpuExpr.literal reached).keepCasts (next :: rest)

theorem castsFold_literal (config : Config) (value : Scalar) :
    CastsFold config value [] (.literal value) where
  folded := by
    rintro _ ⟨⟩
    rfl
  kept := nofun

/-- One more cast over a chain. -/
theorem CastsFold.snoc {value : Scalar} {casts : List HostExpr} {gpu : GpuExpr}
    (fold : CastsFold config value casts gpu)
    (areCasts : ∀ cast ∈ casts, cast.className = .expression "Cast") (cast : HostExpr) :
    CastsFold config value (casts ++ [cast]) (ExprCheck.castOver config gpu cast) := by
  have turns := value.castInTurn_snoc (casts.map (·.type)) cast.type config.castMode
  have types : (casts ++ [cast]).map (·.type) = casts.map (·.type) ++ [cast.type] :=
    List.map_append
  rw [← types] at turns
  cases turned : value.castInTurn (casts.map (·.type)) config.castMode with
  | ok reached =>
      obtain rfl := fold.folded reached turned
      rw [turned, Except.bind] at turns
      rw [ExprCheck.castOver_literal]
      constructor
      · intro result done
        rw [turns] at done
        rw [done]
      · intro error failed
        rw [turns] at failed
        rw [failed]
        exact ⟨casts, cast, [], reached, rfl, turned, failed, rfl⟩
  | error error =>
      obtain ⟨done, next, rest, reached, rfl, before, failed, rfl⟩ := fold.kept error turned
      rw [turned, Except.bind] at turns
      -- A cast that stays is no literal, so nothing above it is folded again.
      have plain : ((GpuExpr.literal reached).keepCasts (next :: rest)).literalValue? = none :=
        GpuExpr.literalValue?_keepCasts_of_error failed fun cast member =>
          areCasts cast (List.mem_append_right _ member)
      rw [ExprCheck.castOver_of_plain plain]
      constructor
      · intro result folds
        rw [turns] at folds
        cases folds
      · intro other fails
        rw [turns] at fails
        obtain rfl := Except.error.inj fails
        refine ⟨done, next, rest ++ [cast], reached, by simp, before, failed, ?_⟩
        rw [GpuExpr.keepCasts, GpuExpr.keepCasts, ← List.foldl_append]
        rfl

/-- An eligible chain of casts over a literal is converted to the literal of the value that the
casts give in turn. From the first cast that fails on all casts stay but those to the type that
there is by then. -/
theorem convert_castLiteral (config : Config) (kind : RuleKind) (parent : Option HostExpr)
    (owner : Option HostPlan) (value : Scalar) {casts : List HostExpr}
    (areCasts : ∀ cast ∈ casts, cast.className = .expression "Cast") :
    let tree := (ofExprAt Builtin.registry kind parent owner (.castLiteral value casts)).tag
      Builtin.registry config
    tree.eligible = true → ∃ gpu, (tree.convert Builtin.registry config).1 = .ok gpu ∧
      CastsFold config value casts gpu := by
  -- From the outermost cast inwards: the rest of the chain is the argument of that cast.
  induction casts using List.reverseRecOn generalizing kind parent with
  | nil =>
      intro tree eligible
      exact ⟨_, convert_tag_literal value eligible, castsFold_literal config value⟩
  | append_singleton casts cast ih =>
      intro tree eligible
      obtain ⟨below, outer⟩ := List.forall_mem_append.mp areCasts
      have chain : HostExpr.castLiteral value (casts ++ [cast]) =
          { cast with children := [.castLiteral value casts] } := List.foldl_append
      have isCast : (HostExpr.castLiteral value (casts ++ [cast])).className = .expression "Cast" :=
        (congrArg HostExpr.className chain).trans (outer cast (List.mem_singleton_self _))
      obtain ⟨allowed, gpu, done, converted⟩ :=
        convert_tag_cast isCast (congrArg HostExpr.children chain) eligible
      obtain ⟨inner, given, fold⟩ := ih .expression _ below allowed
      obtain rfl : inner = gpu := Except.ok.inj (given.symm.trans done)
      refine ⟨_, converted, ?_⟩
      rw [chain]
      exact fold.snoc below cast

def sevenAsInteger : HostExpr :=
  .cast (.literal (.long 7)) .int

def sevenAsTime : HostExpr :=
  .cast sevenAsInteger .timestamp

/-- A literal cast three times. Integers are no timestamps that conversion could fold, and the last
cast is to the type that there is. -/
def sevenAsTimeTwice : HostExpr :=
  .cast sevenAsTime .timestamp

theorem seven_stays :
    let tree := (ofExprAt Builtin.registry .expression (some sevenAsInteger) none
      (.literal (.long 7))).tag Builtin.registry .default
    tree.eligible = true ∧ tree.decision.noOp = false :=
  tag_of_rule (ofExprAt_reasons ..) rfl (List.forall_mem_nil _) (by decide +kernel)

theorem sevenAsInteger_stays :
    let tree := (ofExprAt Builtin.registry .expression (some sevenAsTime) none sevenAsInteger).tag
      Builtin.registry .default
    tree.eligible = true ∧ tree.decision.noOp = false :=
  tag_of_rule (ofExprAt_reasons ..) rfl (List.forall_mem_singleton.mpr seven_stays.1)
    (by decide +kernel)

theorem sevenAsTime_stays :
    let tree := (ofExprAt Builtin.registry .expression (some sevenAsTimeTwice) none sevenAsTime).tag
      Builtin.registry .default
    tree.eligible = true ∧ tree.decision.noOp = false :=
  tag_of_rule (ofExprAt_reasons ..) rfl (List.forall_mem_singleton.mpr sevenAsInteger_stays.1)
    (by decide +kernel)

theorem sevenAsTimeTwice_leftOut :
    let tree := (ofExpr Builtin.registry sevenAsTimeTwice).tag Builtin.registry .default
    tree.eligible = true ∧ tree.decision.noOp = true :=
  tag_of_rule (ofExprAt_reasons ..) rfl (List.forall_mem_singleton.mpr sevenAsTime_stays.1)
    (by decide +kernel)

/-- The first cast is folded, the second one stays and the last one is left out. -/
theorem convert_castLiteral_sevenAsTimeTwice :
    let tree := (ofExpr Builtin.registry sevenAsTimeTwice).tag Builtin.registry .default
    tree.eligible = true ∧ (tree.convert Builtin.registry .default).1 =
      .ok (.ofHost (.call "Cast" .timestamp []) [.literal (.int 7)]) := by
  intro tree
  have areCasts : ∀ cast ∈ [HostExpr.call "Cast" .int [], .call "Cast" .timestamp [],
      .call "Cast" .timestamp []], cast.className = .expression "Cast" := by
    simp [HostExpr.call]
  obtain ⟨gpu, converted, fold⟩ := convert_castLiteral .default .expression none none (.long 7)
    areCasts sevenAsTimeTwice_leftOut.1
  have mode : Config.default.castMode = .legacy := by decide +kernel
  have folds : (Scalar.long 7).cast .int .legacy = .ok (.int 7) := by rfl
  have turned (types : List DataType) :
      (Scalar.long 7).castInTurn (.int :: .timestamp :: types) .legacy =
        .error (.unsupported .long .timestamp) := by
    rfl
  obtain ⟨done, next, rest, reached, chain, before, failed, rfl⟩ :=
    fold.kept (.unsupported .long .timestamp) (mode ▸ turned _)
  rw [mode] at before failed
  refine ⟨sevenAsTimeTwice_leftOut.1, converted.trans ?_⟩
  rcases done with _ | ⟨first, _ | ⟨second, more⟩⟩
  · cases chain
    cases before
    cases folds.symm.trans failed
  · cases chain
    cases before
    rfl
  · simp only [List.cons_append, List.cons.injEq] at chain
    obtain ⟨rfl, rfl, -⟩ := chain
    cases (turned _).symm.trans before

end ExprDecision

end GpuPlacement
