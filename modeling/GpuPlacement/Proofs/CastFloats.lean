import GpuPlacement.Proofs.CastIntegers
import GpuPlacement.Proofs.FloatValues
/-!
ANSI casts of floating values to integral types. They keep the number without its fraction where the
target has it and fail elsewhere, but for one number: the greatest long is no double precision word,
so the test of the bounds lets the number above it pass.
-/
namespace GpuPlacement

/-- From `2 ^ 53` on double precision words denote whole numbers. -/
theorem FloatWord.whole_of_large {word : Binary64} {number : ℚ}
    (value : word.datum.value? = some number) (large : 2 ^ 53 ≤ towardZero number) :
    number = towardZero number := by
  cases seen : word.datum with
  | notANumber | infinite => rw [seen] at value; cases value
  | finite negative significand exponent =>
      have short := (holds_of_datum (by decide) seen).significand
      rw [seen] at value
      obtain rfl := Option.some.inj value
      have magnitude : (0 : ℚ) ≤ significand * 2 ^ exponent := by positivity
      have limit : (significand : ℚ) < 2 ^ 53 := by exact_mod_cast short
      cases negative with
      | true =>
          have below : towardZero (-1 * (significand * 2 ^ exponent)) ≤ 0 := by
            rw [neg_one_mul, towardZero_neg, towardZero, if_pos magnitude]
            exact neg_nonpos_of_nonneg (Int.floor_nonneg.mpr magnitude)
          simp only [if_true] at large
          omega
      | false =>
          simp only [Bool.false_eq_true, if_false, one_mul] at large ⊢
          rw [towardZero, if_pos magnitude] at large ⊢
          have reached : (2 ^ 53 : ℚ) ≤ significand * 2 ^ exponent := by
            exact_mod_cast Int.le_floor.mp large
          -- Below exponent zero a significand stays under 2 ^ 53.
          have natural : 0 ≤ exponent := by
            by_contra fraction
            have shrinks : (2 : ℚ) ^ exponent ≤ 1 :=
              zpow_le_one_of_nonpos₀ one_le_two (le_of_not_ge fraction)
            have := mul_le_of_le_one_right (Nat.cast_nonneg (α := ℚ) significand) shrinks
            linarith
          obtain ⟨power, rfl⟩ := Int.eq_ofNat_of_zero_le natural
          rw [mul_two_zpow_natCast, Int.floor_intCast]

theorem towardZero_two_pow : towardZero (2 ^ 63) = 2 ^ 63 := by
  norm_num [towardZero]

namespace Scalar

variable {datum : FloatDatum} {number : ℚ} {target : DataType} {least greatest : Int}

/-- What a floating scalar denotes. -/
def floating? : Scalar → Option FloatDatum
  | .float word => some word.datum
  | .double word => some word.datum
  | _ => none

theorem exceedsBounds_iff (least greatest : Int) (datum : FloatDatum) :
    exceedsBounds least greatest datum = true ↔ ∀ number, datum.value? = some number →
      towardZero number < doubleBound least ∨ doubleBound greatest < towardZero number := by
  cases datum with
  | notANumber | infinite => exact ⟨fun _ _ => nofun, fun _ => rfl⟩
  | finite negative significand exponent =>
      unfold exceedsBounds
      dsimp only
      rw [FloatDatum.truncate?_eq]
      simp [FloatDatum.value?]

theorem saturate_eq (value : datum.value? = some number) :
    saturate datum =
      max Int64.minValue.toInt (min Int64.maxValue.toInt (towardZero number)) := by
  cases datum with
  | notANumber | infinite => cases value
  | finite negative significand exponent =>
      unfold saturate
      dsimp only
      rw [FloatDatum.truncate?_eq, value]
      rfl

theorem doubleBound_least (bounds : target.integralBounds? = some (least, greatest)) :
    doubleBound least = least := by
  cases target <;> cases bounds <;> decide +kernel

theorem greatest_long (bounds : DataType.long.integralBounds? = some (least, greatest)) :
    greatest = 2 ^ 63 - 1 := by
  cases bounds
  decide +kernel

/-- The greatest long has no word in double precision. -/
theorem doubleBound_greatest (bounds : target.integralBounds? = some (least, greatest)) :
    doubleBound greatest = if target = .long then 2 ^ 63 else greatest := by
  cases target <;> cases bounds <;> decide +kernel

/-- The test of the bounds is exact but at the number above the greatest long. -/
theorem exceedsBounds_of_value (bounds : target.integralBounds? = some (least, greatest))
    (value : datum.value? = some number) :
    exceedsBounds least greatest datum = true ↔
      ¬(least ≤ towardZero number ∧ towardZero number ≤ greatest) ∧
        ¬(target = .long ∧ towardZero number = 2 ^ 63) := by
  simp only [exceedsBounds_iff, value, Option.some.injEq, forall_eq', doubleBound_least bounds,
    doubleBound_greatest bounds]
  obtain ⟨-, ordered, -⟩ := bounds_within_long bounds
  by_cases widest : target = .long
  · subst widest
    have := greatest_long bounds
    simp only [if_true, true_and]
    omega
  · simp only [widest, if_false, false_and, not_false_eq_true, and_true]
    omega

theorem floating_cast {value : Scalar} (floating : value.floating? = some datum)
    (integral : target.isIntegral = true) :
    ∃ word : Binary64, word.datum.value? = datum.value? ∧
      ∀ mode, value.cast target mode = castDouble word target mode := by
  have guard : (target.isIntegral || target.isFloating) = true := by rw [integral, Bool.true_or]
  cases value <;> cases floating
  case float word =>
    have differs : (float word).type ≠ target := by rintro rfl; cases integral
    refine ⟨word.convert .double, FloatWord.value?_convert_double word, fun mode => ?_⟩
    unfold cast
    rw [if_neg differs]
    exact if_pos guard
  case double word =>
    have differs : (double word).type ≠ target := by rintro rfl; cases integral
    refine ⟨word, rfl, fun mode => ?_⟩
    unfold cast
    rw [if_neg differs]
    exact if_pos guard

/-- What an ANSI cast to an integral type comes to where the value denotes a number or none. -/
inductive Truncates (denoted : Option ℚ) (target : DataType) (least greatest : Int) :
    Except CastError Scalar → Prop
  | inside {number result} : denoted = some number → least ≤ towardZero number →
      towardZero number ≤ greatest → result.type = target →
      result.integer? = some (towardZero number) →
      Truncates denoted target least greatest (.ok result)
  | justAbove {result} : target = .long → denoted = some (2 ^ 63) → result.type = target →
      result.integer? = some greatest → Truncates denoted target least greatest (.ok result)
  | outside {text} : (∀ number, denoted = some number →
      ¬(least ≤ towardZero number ∧ towardZero number ≤ greatest) ∧
        ¬(target = .long ∧ number = 2 ^ 63)) →
      Truncates denoted target least greatest (.error (.overflow text target))

theorem castDouble_truncates (bounds : target.integralBounds? = some (least, greatest))
    (word : Binary64) :
    Truncates word.datum.value? target least greatest (castDouble word target .ansi) := by
  rw [castDouble_of_bounds bounds]
  cases seen : word.datum.value? with
  | none =>
      have beyond : exceedsBounds least greatest word.datum = true :=
        (exceedsBounds_iff ..).mpr fun number value => by rw [seen] at value; cases value
      rw [if_pos ⟨rfl, beyond⟩]
      exact .outside nofun
  | some number =>
      obtain ⟨width, wide, low, high⟩ := DataType.exists_width_of_bounds bounds
      obtain ⟨minimum, ordered, maximum⟩ := bounds_within_long bounds
      have exceeds := exceedsBounds_of_value bounds seen
      rw [saturate_eq seen]
      -- The number above the greatest long passes the test, and is clamped afterwards.
      by_cases edge : target = .long ∧ towardZero number = 2 ^ 63
      · obtain ⟨rfl, reached⟩ := edge
        have top := greatest_long bounds
        have clamped : max least (min greatest (max Int64.minValue.toInt
            (min Int64.maxValue.toInt (towardZero number)))) = greatest := by omega
        have above : -2 ^ (width - 1) ≤ greatest := by omega
        have below : greatest < 2 ^ (width - 1) := by omega
        obtain ⟨result, done, type, integral⟩ :=
          exists_castToIntegral_inside wide above below .legacy
        rw [if_neg fun both => (exceeds.mp both.2).2 ⟨rfl, reached⟩, clamped, done]
        refine .justAbove rfl ?_ type integral
        rw [FloatWord.whole_of_large seen (by omega), reached]
        norm_num
      by_cases inside : least ≤ towardZero number ∧ towardZero number ≤ greatest
      · have kept : max least (min greatest (max Int64.minValue.toInt
            (min Int64.maxValue.toInt (towardZero number)))) = towardZero number := by omega
        have above : -2 ^ (width - 1) ≤ towardZero number := by omega
        have below : towardZero number < 2 ^ (width - 1) := by omega
        obtain ⟨result, done, type, integral⟩ :=
          exists_castToIntegral_inside wide above below .legacy
        rw [if_neg fun both => (exceeds.mp both.2).1 inside, kept, done]
        exact .inside rfl inside.1 inside.2 type integral
      · rw [if_pos ⟨rfl, exceeds.mpr ⟨inside, edge⟩⟩]
        refine .outside ?_
        rintro _ ⟨⟩
        refine ⟨inside, fun ⟨widest, reached⟩ => edge ⟨widest, ?_⟩⟩
        rw [reached, towardZero_two_pow]

theorem cast_truncates {value : Scalar} (floating : value.floating? = some datum)
    (bounds : target.integralBounds? = some (least, greatest)) :
    Truncates datum.value? target least greatest (value.cast target .ansi) := by
  obtain ⟨word, same, casts⟩ := floating_cast floating (DataType.isIntegral_of_bounds bounds)
  rw [casts, ← same]
  exact castDouble_truncates bounds word

theorem Truncates.ok_iff {denoted : Option ℚ} {outcome : Except CastError Scalar}
    (bounds : target.integralBounds? = some (least, greatest))
    (truncates : Truncates denoted target least greatest outcome) (result : Scalar) :
    outcome = .ok result ↔ result.type = target ∧ ∃ number, denoted = some number ∧
      ((least ≤ towardZero number ∧ towardZero number ≤ greatest ∧
          result.integer? = some (towardZero number)) ∨
        (target = .long ∧ number = 2 ^ 63 ∧ result.integer? = some greatest)) := by
  cases truncates with
  | @inside number reached value low high type integral =>
      constructor
      · rintro ⟨⟩
        exact ⟨type, number, value, .inl ⟨low, high, integral⟩⟩
      · rintro ⟨own, other, same, ⟨-, -, also⟩ | ⟨rfl, rfl, -⟩⟩
        · obtain rfl := Option.some.inj (value.symm.trans same)
          rw [eq_of_integer (type.trans own.symm) integral also]
        · obtain rfl := Option.some.inj (value.symm.trans same)
          have top := greatest_long bounds
          rw [towardZero_two_pow] at high
          omega
  | @justAbove reached widest value type integral =>
      constructor
      · rintro ⟨⟩
        exact ⟨type, _, value, .inr ⟨widest, rfl, integral⟩⟩
      · rintro ⟨own, other, same, ⟨-, high, -⟩ | ⟨-, rfl, also⟩⟩
        · obtain rfl := Option.some.inj (value.symm.trans same)
          subst widest
          have top := greatest_long bounds
          rw [towardZero_two_pow] at high
          omega
        · rw [eq_of_integer (type.trans own.symm) integral also]
  | outside beyond =>
      constructor
      · nofun
      · rintro ⟨-, number, value, ⟨low, high, -⟩ | ⟨widest, top, -⟩⟩
        · exact absurd ⟨low, high⟩ (beyond number value).1
        · exact absurd ⟨widest, top⟩ (beyond number value).2

/-- An ANSI cast of a floating value to an integral type gives the number without its fraction just
where the target has it, and the greatest long for the number right above it. All else, infinities
and what is not a number included, overflows. -/
theorem cast_floating_ansi {value : Scalar} (floating : value.floating? = some datum)
    (bounds : target.integralBounds? = some (least, greatest)) :
    (∀ result, value.cast target .ansi = .ok result ↔
      result.type = target ∧ ∃ number, datum.value? = some number ∧
        ((least ≤ towardZero number ∧ towardZero number ≤ greatest ∧
            result.integer? = some (towardZero number)) ∨
          (target = .long ∧ number = 2 ^ 63 ∧ result.integer? = some greatest))) ∧
    ∀ error, value.cast target .ansi = .error error → ∃ text, error = .overflow text target := by
  have truncates := cast_truncates floating bounds
  refine ⟨truncates.ok_iff bounds, fun error failed => ?_⟩
  rw [failed] at truncates
  cases truncates with
  | outside => exact ⟨_, rfl⟩

/-- The double precision word right above the greatest long. -/
def aboveLong : Scalar :=
  .double (.ofInt (2 ^ 63))

theorem aboveLong_floating : aboveLong.floating? = some (.finite false (2 ^ 52) 11) := by
  decide +kernel

/-- The word right above the greatest long is cast to it, so that no failure tells of the loss. -/
theorem cast_floating_ansi_aboveLong :
    aboveLong.floating? = some (.finite false (2 ^ 52) 11) ∧
      DataType.long.integralBounds? = some (-2 ^ 63, 2 ^ 63 - 1) ∧
      aboveLong.cast .long .ansi = .ok (.long Int64.maxValue) := by
  have bounds : DataType.long.integralBounds? = some (-2 ^ 63, 2 ^ 63 - 1) := rfl
  refine ⟨aboveLong_floating, bounds, ?_⟩
  refine ((cast_floating_ansi aboveLong_floating bounds).1 _).mpr ⟨rfl, 2 ^ 63, ?_, .inr ?_⟩
  · norm_num [FloatDatum.value?]
  · exact ⟨rfl, rfl, rfl⟩

/-- So the test of the bounds is not exact for every floating value. -/
theorem not_forall_cast_floating_inside :
    ¬∀ (value : Scalar) (datum : FloatDatum) (target : DataType) (least greatest : Int),
      value.floating? = some datum → target.integralBounds? = some (least, greatest) →
      ∀ result, value.cast target .ansi = .ok result ↔
        result.type = target ∧ ∃ number, datum.value? = some number ∧ least ≤ towardZero number ∧
          towardZero number ≤ greatest ∧ result.integer? = some (towardZero number) := by
  intro tested
  have done : aboveLong.cast .long .ansi = .ok (.long Int64.maxValue) := rfl
  obtain ⟨-, number, value, -, high, -⟩ :=
    (tested aboveLong _ .long _ _ aboveLong_floating rfl _).mp done
  obtain rfl := Option.some.inj value
  norm_num [towardZero] at high
  exact absurd high (by decide)

end Scalar

end GpuPlacement
