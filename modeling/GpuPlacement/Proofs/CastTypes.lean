import GpuPlacement.Proofs.CastModes
/-!
The types in the outcomes of casts. A value has the type that was asked for, and an error names it
as the target. As the source of a cast that is left to execution an error names the type that the
value was widened to, which is not its own where an integer is smaller than a long.
-/
namespace GpuPlacement

namespace CastError

def target : CastError → DataType
  | .overflow _ target => target
  | .malformed _ target => target
  | .unsupported _ target => target

/-- The source type, where an error names one. -/
def source? : CastError → Option DataType
  | .overflow .. | .malformed .. => none
  | .unsupported source _ => some source

end CastError

/-- Casts look at the smaller integers as longs. -/
def DataType.widened : DataType → DataType
  | .byte | .short | .int => .long
  | type => type

namespace Scalar

/-- What a cast to a target comes to, if it names a source wherever it is left to execution. -/
inductive Typed (source target : DataType) : Except CastError Scalar → Prop
  | done {result : Scalar} : result.type = target → Typed source target (.ok result)
  | overflow (text : String) : Typed source target (.error (.overflow text target))
  | malformed (text : String) : Typed source target (.error (.malformed text target))
  | unsupported : Typed source target (.error (.unsupported source target))

variable {source target : DataType} {mode : CastMode}

theorem wrapped?_type {value : Int} {result : Scalar} (h : wrapped? value target = some result) :
    result.type = target := by
  cases target <;> cases h <;> rfl

theorem castToIntegral_typed (value : Int)
    (left : target.isIntegral = false → source = .long) :
    Typed source target (castToIntegral value target mode) := by
  cases bounds : target.integralBounds? with
  | none =>
      obtain rfl := left (DataType.isIntegral_of_no_bounds bounds)
      unfold castToIntegral
      rw [bounds]
      exact .unsupported
  | some range =>
      obtain ⟨scalar, wrapped⟩ := exists_wrapped? bounds value
      rw [castToIntegral_of_bounds bounds wrapped]
      split
      · exact .overflow _
      · exact .done (wrapped?_type wrapped)

theorem castInteger_typed (value : Int) :
    Typed .long target (castInteger value target mode) := by
  unfold castInteger
  split
  case h_5 => exact castToIntegral_typed value fun _ => rfl
  all_goals exact .done rfl

theorem castDouble_typed (value : Binary64)
    (taken : (target.isIntegral || target.isFloating) = true) :
    Typed source target (castDouble value target mode) := by
  cases bounds : target.integralBounds? with
  | none =>
      rw [DataType.isIntegral_of_no_bounds bounds, Bool.false_or] at taken
      cases target <;> first | exact .done rfl | cases taken
  | some range =>
      rw [castDouble_of_bounds bounds]
      split
      · exact .overflow _
      · apply castToIntegral_typed
        simp [DataType.isIntegral_of_bounds bounds]

theorem unreadable_typed (text : String) :
    Typed source target (unreadable text target mode) := by
  cases mode with
  | ansi => exact .malformed text
  | legacy => exact .done rfl

theorem castTextToIntegral_typed (text : String) (integral : target.isIntegral = true) :
    Typed source target (castTextToIntegral text target mode) := by
  unfold castTextToIntegral
  split
  next => exact unreadable_typed text
  next value _ =>
    split
    next none => simp [DataType.isIntegral_of_no_bounds none] at integral
    next =>
      split
      · cases mode with
        | ansi => exact .overflow text
        | legacy => exact .done rfl
      · apply castToIntegral_typed
        simp [integral]

theorem castText_typed (text : String) : Typed .string target (castText text target mode) := by
  unfold castText
  dsimp only
  split
  case h_1 | h_2 | h_3 =>
    split
    next scalar read =>
      obtain ⟨value, -, rfl⟩ := Option.map_eq_some_iff.mp read
      exact .done rfl
    next => exact unreadable_typed text
  case h_8 => exact .unsupported
  all_goals exact castTextToIntegral_typed text rfl

theorem cast_typed (value : Scalar) (target : DataType) (mode : CastMode) :
    Typed value.type.widened target (value.cast target mode) := by
  unfold cast
  split
  next same => exact .done same
  split
  next => exact .done rfl
  cases value with
  | null => contradiction
  | boolean truth =>
      dsimp only
      split
      next integral =>
        apply castToIntegral_typed
        simp [integral]
      next => exact .unsupported
  | byte number | short number | int number | long number =>
      -- All that is left of the value here is a number, so its own type cannot be named.
      exact castInteger_typed _
  | float word =>
      dsimp only
      split
      next taken => exact castDouble_typed _ taken
      next => exact .unsupported
  | double word =>
      dsimp only
      split
      next taken => exact castDouble_typed word taken
      next => exact .unsupported
  | string text => exact castText_typed text
  | date | timestamp => exact .unsupported

/-- A cast that succeeds gives a value of the target type, be it a null. -/
theorem cast_type {value result : Scalar} (h : value.cast target mode = .ok result) :
    result.type = target := by
  have typed := cast_typed value target mode
  rw [h] at typed
  cases typed with
  | done type => exact type

/-- An error of a cast names the target that was asked for. The source type that it names, if any,
is the type of the value, but the long type for the smaller integers. -/
theorem cast_error_types {value : Scalar} {target : DataType} {mode : CastMode} {error : CastError}
    (failed : value.cast target mode = .error error) :
    error.target = target ∧
      ∀ source, error.source? = some source → source = value.type.widened := by
  have typed := cast_typed value target mode
  rw [failed] at typed
  cases typed with
  | overflow text => exact ⟨rfl, nofun⟩
  | malformed text => exact ⟨rfl, nofun⟩
  | unsupported =>
      refine ⟨rfl, ?_⟩
      rintro source ⟨⟩
      rfl

/-- No integer is cast to an array. The errors for a long and for an int name the same source. -/
theorem cast_error_types_array :
    ∃ error, (long 7).cast (.array .int) .ansi = .error error ∧
      (int 7).cast (.array .int) .ansi = .error error ∧ error.target = .array .int ∧
      ∀ source, error.source? = some source →
        source = (long 7).type.widened ∧ source = (int 7).type.widened := by
  have ofLong : (long 7).cast (.array .int) .ansi =
      .error (.unsupported .long (.array .int)) := rfl
  have ofInt : (int 7).cast (.array .int) .ansi =
      .error (.unsupported .long (.array .int)) := rfl
  obtain ⟨target, wide⟩ := cast_error_types ofLong
  obtain ⟨-, narrow⟩ := cast_error_types ofInt
  exact ⟨_, ofLong, ofInt, target, fun source named => ⟨wide source named, narrow source named⟩⟩

/-- So an error does not always name the type of the value. -/
theorem not_forall_cast_error_source :
    ¬∀ (value : Scalar) (target : DataType) (mode : CastMode) (error : CastError),
      value.cast target mode = .error error →
        error.target = target ∧ ∀ source, error.source? = some source → source = value.type := by
  intro named
  have failed : (int 7).cast .date .legacy = .error (.unsupported .long .date) := rfl
  obtain ⟨-, source⟩ := named _ _ _ _ failed
  exact absurd (source .long rfl) (by decide)

end Scalar

end GpuPlacement
