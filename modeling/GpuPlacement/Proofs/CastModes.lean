import GpuPlacement.Scalar.Cast
/-!
The two modes of casts beside each other. ANSI casts differ from legacy casts only where they report
a value that legacy casts change, and which casts are left to execution is a matter of types.
-/
namespace GpuPlacement

namespace DataType

/-- Types that integers are cast to. -/
def takesIntegers : DataType → Bool
  | .boolean | .float | .double | .string => true
  | type => type.isIntegral

/-- Types that texts are read as. -/
def takesTexts : DataType → Bool
  | .boolean | .float | .double => true
  | type => type.isIntegral

/-- Whether literals of a type are cast to another type at all, whatever their values. -/
def castsTo (source target : DataType) : Bool :=
  source = target ||
    match source with
    | .boolean => target.isIntegral
    | .byte | .short | .int | .long => target.takesIntegers
    | .float | .double => target.isIntegral || target.isFloating
    | .string => target.takesTexts
    | _ => false

variable {type : DataType} {least greatest : Int}

theorem isIntegral_of_bounds (bounds : type.integralBounds? = some (least, greatest)) :
    type.isIntegral = true := by
  cases type <;> first | rfl | cases bounds

theorem isIntegral_of_no_bounds (unbounded : type.integralBounds? = none) :
    type.isIntegral = false := by
  cases type <;> first | rfl | cases unbounded

end DataType

namespace Scalar

/-- What the ANSI mode and the legacy mode make of one cast, and whether they cast at all. -/
inductive Outcomes : Except CastError Scalar → Except CastError Scalar → Bool → Prop
  | agree (result : Scalar) : Outcomes (.ok result) (.ok result) true
  | overflow (value : String) (target : DataType) (result : Scalar) :
      Outcomes (.error (.overflow value target)) (.ok result) true
  | malformed (value : String) (target : DataType) (result : Scalar) :
      Outcomes (.error (.malformed value target)) (.ok result) true
  | unsupported (source target : DataType) :
      Outcomes (.error (.unsupported source target)) (.error (.unsupported source target)) false

theorem exists_wrapped? {target : DataType} {least greatest : Int}
    (bounds : target.integralBounds? = some (least, greatest)) (value : Int) :
    ∃ scalar, wrapped? value target = some scalar := by
  cases target
  case byte | short | int | long => exact ⟨_, rfl⟩
  all_goals cases bounds

theorem castToIntegral_of_bounds {target : DataType} {least greatest value : Int} {scalar : Scalar}
    (bounds : target.integralBounds? = some (least, greatest))
    (wrapped : wrapped? value target = some scalar) (mode : CastMode) :
    castToIntegral value target mode =
      if mode = .ansi ∧ (value < least ∨ greatest < value) then
        .error (.overflow (toString value) target)
      else .ok scalar := by
  rw [castToIntegral, bounds, wrapped]

theorem castToIntegral_legacy {target : DataType} {value : Int} {scalar : Scalar}
    (wrapped : wrapped? value target = some scalar) :
    castToIntegral value target .legacy = .ok scalar := by
  cases target <;> cases wrapped <;> rfl

theorem castToIntegral_outcomes (value : Int) (target : DataType) :
    Outcomes (castToIntegral value target .ansi) (castToIntegral value target .legacy)
      target.isIntegral := by
  cases bounds : target.integralBounds? with
  | none =>
      rw [DataType.isIntegral_of_no_bounds bounds]
      unfold castToIntegral
      rw [bounds]
      exact .unsupported ..
  | some range =>
      obtain ⟨scalar, wrapped⟩ := exists_wrapped? bounds value
      rw [DataType.isIntegral_of_bounds bounds, castToIntegral_legacy wrapped,
        castToIntegral_of_bounds bounds wrapped]
      split
      · exact .overflow ..
      · exact .agree scalar

theorem castInteger_outcomes (value : Int) (target : DataType) :
    Outcomes (castInteger value target .ansi) (castInteger value target .legacy)
      target.takesIntegers := by
  have integral := castToIntegral_outcomes value target
  cases target
  case boolean | float | double | string => exact .agree _
  all_goals exact integral

theorem castDouble_of_bounds {target : DataType} {least greatest : Int}
    (bounds : target.integralBounds? = some (least, greatest)) (value : Binary64)
    (mode : CastMode) :
    castDouble value target mode =
      if mode = .ansi ∧ exceedsBounds least greatest value.datum then
        .error (.overflow (value.text .report) target)
      else castToIntegral (max least (min greatest (saturate value.datum))) target .legacy := by
  cases target <;> cases bounds <;> rfl

theorem castDouble_integral_outcomes {target : DataType} {least greatest : Int}
    (bounds : target.integralBounds? = some (least, greatest)) (value : Binary64) :
    Outcomes (castDouble value target .ansi) (castDouble value target .legacy) true := by
  obtain ⟨scalar, wrapped⟩ :=
    exists_wrapped? bounds (max least (min greatest (saturate value.datum)))
  rw [castDouble_of_bounds bounds, castDouble_of_bounds bounds, castToIntegral_legacy wrapped,
    if_neg (fun changed => nomatch changed.1 : ¬(CastMode.legacy = .ansi ∧ _))]
  split
  · exact .overflow ..
  · exact .agree scalar

theorem castDouble_outcomes (value : Binary64) (target : DataType) :
    Outcomes (castDouble value target .ansi) (castDouble value target .legacy)
      (target.isIntegral || target.isFloating) := by
  cases target
  case float | double => exact .agree _
  case byte | short | int | long => exact castDouble_integral_outcomes rfl value
  all_goals exact .unsupported ..

theorem unreadable_outcomes (text : String) (target : DataType) :
    Outcomes (unreadable text target .ansi) (unreadable text target .legacy) true :=
  .malformed ..

theorem castTextToIntegral_outcomes (text : String) {target : DataType} {least greatest : Int}
    (bounds : target.integralBounds? = some (least, greatest)) :
    Outcomes (castTextToIntegral text target .ansi) (castTextToIntegral text target .legacy)
      true := by
  unfold castTextToIntegral
  split
  next => exact unreadable_outcomes text target
  next value _ =>
    obtain ⟨scalar, wrapped⟩ := exists_wrapped? bounds value
    rw [bounds]
    dsimp only
    split
    · exact .overflow ..
    · rw [castToIntegral_legacy wrapped]
      exact .agree scalar

theorem castText_outcomes (text : String) (target : DataType) :
    Outcomes (castText text target .ansi) (castText text target .legacy) target.takesTexts := by
  cases target
  case byte | short | int | long => exact castTextToIntegral_outcomes text rfl
  case boolean | float | double =>
    unfold castText
    dsimp only
    split
    · exact .agree _
    · exact unreadable_outcomes ..
  all_goals exact .unsupported ..

/-- Casts that are left to execution beforehand, whatever the mode. -/
theorem Outcomes.guarded {ansi legacy : Except CastError Scalar} {casts : Bool}
    (outcomes : Outcomes ansi legacy casts) (source target : DataType) :
    Outcomes (if casts then ansi else .error (.unsupported source target))
      (if casts then legacy else .error (.unsupported source target)) casts := by
  cases casts with
  | false => exact .unsupported source target
  | true => exact outcomes

theorem cast_outcomes (value : Scalar) (target : DataType) (given : value.isNull = false) :
    Outcomes (value.cast target .ansi) (value.cast target .legacy) (value.type.castsTo target) := by
  unfold cast DataType.castsTo
  by_cases same : value.type = target
  · rw [if_pos same, if_pos same, decide_eq_true same, Bool.true_or]
    exact .agree value
  · rw [if_neg same, if_neg same, decide_eq_false same, Bool.false_or, given]
    cases value with
    | null => cases given
    | boolean truth => exact (castToIntegral_outcomes _ target).guarded .boolean target
    | byte number => exact castInteger_outcomes number.toInt target
    | short number => exact castInteger_outcomes number.toInt target
    | int number => exact castInteger_outcomes number.toInt target
    | long number => exact castInteger_outcomes number.toInt target
    | float word => exact (castDouble_outcomes _ target).guarded .float target
    | double word => exact (castDouble_outcomes word target).guarded .double target
    | string text => exact castText_outcomes text target
    | date | timestamp => exact .unsupported ..

theorem cast_own (value : Scalar) (mode : CastMode) : value.cast value.type mode = .ok value := by
  unfold cast
  exact if_pos rfl

theorem cast_null (type target : DataType) (mode : CastMode) :
    (null type).cast target mode = .ok (.null target) := by
  unfold cast
  split
  next same => rw [← same, Scalar.type]
  next => rfl

theorem exists_cast_outcomes (value : Scalar) (target : DataType) :
    ∃ casts, Outcomes (value.cast target .ansi) (value.cast target .legacy) casts := by
  cases given : value.isNull with
  | false => exact ⟨_, cast_outcomes value target given⟩
  | true =>
      obtain ⟨type, rfl⟩ : ∃ type, value = null type := by
        cases value <;> first | exact ⟨_, rfl⟩ | cases given
      rw [cast_null, cast_null]
      exact ⟨true, .agree _⟩

namespace Outcomes

variable {ansi legacy : Except CastError Scalar} {casts : Bool} {result : Scalar}
  {error : CastError}

theorem legacy_ok (outcomes : Outcomes ansi legacy casts) (done : ansi = .ok result) :
    legacy = .ok result := by
  cases outcomes <;> first | exact done | cases done

theorem legacy_of_reported (outcomes : Outcomes ansi legacy casts) (failed : ansi = .error error)
    (reported : ∃ text type, error = .overflow text type ∨ error = .malformed text type) :
    ∃ result, legacy = .ok result := by
  obtain ⟨text, type, rfl | rfl⟩ := reported
  all_goals cases outcomes <;> first | exact ⟨_, rfl⟩ | cases failed

theorem unsupported_of_legacy (outcomes : Outcomes ansi legacy casts)
    (failed : legacy = .error error) :
    (∃ source type, error = .unsupported source type) ∧ ansi = .error error := by
  cases outcomes <;> cases failed
  exact ⟨⟨_, _, rfl⟩, rfl⟩

theorem ansi_unsupported_iff (outcomes : Outcomes ansi legacy casts) :
    (∃ source type, ansi = .error (.unsupported source type)) ↔ casts = false := by
  cases outcomes <;> simp

theorem legacy_unsupported_iff (outcomes : Outcomes ansi legacy casts) :
    (∃ source type, legacy = .error (.unsupported source type)) ↔ casts = false := by
  cases outcomes <;> simp

end Outcomes

/-- What ANSI casts give, legacy casts give, too. Where ANSI casts report a value or a text, legacy
casts go through, and legacy casts fail only where both modes leave the cast to execution. Which
casts of values other than nulls these are depends on the two types alone. -/
theorem cast_ansi_refines (value : Scalar) (target : DataType) :
    (∀ result, value.cast target .ansi = .ok result → value.cast target .legacy = .ok result) ∧
    (∀ error, value.cast target .ansi = .error error →
      (∃ text type, error = .overflow text type ∨ error = .malformed text type) →
      ∃ result, value.cast target .legacy = .ok result) ∧
    (∀ error, value.cast target .legacy = .error error →
      (∃ source type, error = .unsupported source type) ∧
      value.cast target .ansi = .error error) ∧
    (value.isNull = false → ∀ mode,
      (∃ source type, value.cast target mode = .error (.unsupported source type)) ↔
        value.type.castsTo target = false) := by
  obtain ⟨casts, outcomes⟩ := exists_cast_outcomes value target
  refine ⟨fun result => outcomes.legacy_ok, fun error => outcomes.legacy_of_reported,
    fun error => outcomes.unsupported_of_legacy, fun given mode => ?_⟩
  have typed := cast_outcomes value target given
  cases mode with
  | ansi => exact typed.ansi_unsupported_iff
  | legacy => exact typed.legacy_unsupported_iff

/-- An integer beyond the bounds of its target tells the modes apart. -/
theorem cast_ansi_refines_threeHundred :
    (Scalar.int 300).cast .byte .ansi = .error (.overflow "300" .byte) ∧
      (∃ result, (Scalar.int 300).cast .byte .legacy = .ok result) ∧
      ∀ mode, ¬∃ source type, (Scalar.int 300).cast .byte mode =
        .error (.unsupported source type) := by
  obtain ⟨-, reported, -, unsupported⟩ := cast_ansi_refines (.int 300) .byte
  have failed : (Scalar.int 300).cast .byte .ansi = .error (.overflow "300" .byte) := rfl
  refine ⟨failed, reported _ failed ⟨_, _, .inl rfl⟩, fun mode left => ?_⟩
  exact absurd ((unsupported rfl mode).mp left) (by decide)

end Scalar

end GpuPlacement
