import Mathlib.Data.Int.ModEq
import GpuPlacement.Proofs.CastTypes
/-!
Casts between integral types. They are arithmetic modulo the range of the target: a legacy cast
gives the value of the target type that is congruent to the source, and an ANSI cast keeps the
number or fails.
-/
namespace GpuPlacement

namespace DataType

/-- The width of an integral type in bits. -/
def width? : DataType → Option Nat
  | .byte => some 8
  | .short => some 16
  | .int => some 32
  | .long => some 64
  | _ => none

theorem bounds_of_width {type : DataType} {width : Nat} (wide : type.width? = some width) :
    type.integralBounds? = some (-2 ^ (width - 1), 2 ^ (width - 1) - 1) := by
  cases type <;> cases wide <;> decide +kernel

theorem exists_width_of_bounds {type : DataType} {least greatest : Int}
    (bounds : type.integralBounds? = some (least, greatest)) :
    ∃ width, type.width? = some width ∧ least = -2 ^ (width - 1) ∧
      greatest = 2 ^ (width - 1) - 1 := by
  obtain ⟨width, wide⟩ : ∃ width, type.width? = some width := by
    cases type <;> cases bounds <;> exact ⟨_, rfl⟩
  rw [bounds_of_width wide] at bounds
  cases bounds
  exact ⟨width, wide, rfl, rfl⟩

theorem width_pos {type : DataType} {width : Nat} (wide : type.width? = some width) :
    0 < width := by
  cases type <;> cases wide <;> decide

end DataType

namespace Scalar

variable {value other scalar : Scalar} {number : Int} {target : DataType} {width : Nat}

theorem bounds_within_long {least greatest : Int}
    (bounds : target.integralBounds? = some (least, greatest)) :
    Int64.minValue.toInt ≤ least ∧ least ≤ greatest ∧ greatest ≤ Int64.maxValue.toInt := by
  cases target <;> cases bounds <;> decide +kernel

theorem integer_range (integral : value.integer? = some number)
    (wide : value.type.width? = some width) :
    -2 ^ (width - 1) ≤ number ∧ number < 2 ^ (width - 1) := by
  cases value <;> cases integral <;> cases wide
  case byte value => exact ⟨value.le_toInt, value.toInt_lt⟩
  case short value => exact ⟨value.le_toInt, value.toInt_lt⟩
  case int value => exact ⟨value.le_toInt, value.toInt_lt⟩
  case long value => exact ⟨value.le_toInt, value.toInt_lt⟩

theorem wrapped?_own (integral : value.integer? = some number) :
    wrapped? number value.type = some value := by
  cases value <;> cases integral
  case byte value => exact congrArg (some ∘ byte) (Int8.ofInt_toInt value)
  case short value => exact congrArg (some ∘ short) (Int16.ofInt_toInt value)
  case int value => exact congrArg (some ∘ int) (Int32.ofInt_toInt value)
  case long value => exact congrArg (some ∘ long) (Int64.ofInt_toInt value)

/-- An integral scalar is determined by its type and its number. -/
theorem eq_of_integer (types : value.type = other.type) (integral : value.integer? = some number)
    (same : other.integer? = some number) : value = other := by
  have own := wrapped?_own integral
  rw [types, wrapped?_own same] at own
  exact (Option.some.inj own).symm

theorem wrapped?_integer (wide : target.width? = some width)
    (wrapped : wrapped? number target = some scalar) :
    scalar.integer? = some (number.bmod (2 ^ width)) := by
  cases target <;> cases wide <;> cases wrapped
  case byte => exact congrArg some Int8.toInt_ofInt
  case short => exact congrArg some Int16.toInt_ofInt
  case int => exact congrArg some Int32.toInt_ofInt
  case long => exact congrArg some Int64.toInt_ofInt

theorem bmod_of_range (positive : 0 < width) (least : -2 ^ (width - 1) ≤ number)
    (greatest : number < 2 ^ (width - 1)) : number.bmod (2 ^ width) = number := by
  have double : (2 ^ width : Nat) = 2 * 2 ^ (width - 1) := by
    rw [← Nat.pow_succ', Nat.succ_eq_add_one, Nat.sub_add_cancel positive]
  have half : ((2 ^ (width - 1) : Nat) : Int) = 2 ^ (width - 1) := by push_cast; rfl
  rw [double]
  apply Int.bmod_eq_of_le
  · push_cast
    omega
  · push_cast
    omega

theorem exists_castToIntegral_legacy (wide : target.width? = some width) (number : Int) :
    ∃ result, castToIntegral number target .legacy = .ok result ∧ result.type = target ∧
      result.integer? = some (number.bmod (2 ^ width)) := by
  obtain ⟨result, wrapped⟩ := exists_wrapped? (DataType.bounds_of_width wide) number
  exact ⟨result, castToIntegral_legacy wrapped, wrapped?_type wrapped,
    wrapped?_integer wide wrapped⟩

theorem exists_castToIntegral_inside (wide : target.width? = some width)
    (least : -2 ^ (width - 1) ≤ number) (greatest : number < 2 ^ (width - 1)) (mode : CastMode) :
    ∃ result, castToIntegral number target mode = .ok result ∧ result.type = target ∧
      result.integer? = some number := by
  have bounds := DataType.bounds_of_width wide
  obtain ⟨result, wrapped⟩ := exists_wrapped? bounds number
  have kept := wrapped?_integer wide wrapped
  rw [bmod_of_range (DataType.width_pos wide) least greatest] at kept
  refine ⟨result, ?_, wrapped?_type wrapped, kept⟩
  rw [castToIntegral_of_bounds bounds wrapped, if_neg]
  omega

/-- The cast to the own type is no special case among the casts of integers. -/
theorem cast_integral (integral : value.integer? = some number) (wide : target.width? = some width)
    (mode : CastMode) : value.cast target mode = castToIntegral number target mode := by
  by_cases own : value.type = target
  · subst own
    obtain ⟨least, greatest⟩ := integer_range integral wide
    obtain ⟨result, done, type, same⟩ := exists_castToIntegral_inside wide least greatest mode
    rw [done, eq_of_integer type same integral, cast_own]
  · have steps : value.cast target mode = castInteger number target mode := by
      unfold cast
      rw [if_neg own]
      cases value <;> cases integral <;> rfl
    rw [steps]
    cases target <;> cases wide <;> rfl

/-- A scalar of an integral type whose number is congruent to a given one modulo the range of the
type. -/
structure Wraps (number : Int) (target : DataType) (width : Nat) (scalar : Scalar) : Prop where
  type : scalar.type = target
  congruent : ∃ own, scalar.integer? = some own ∧ own ≡ number [ZMOD 2 ^ width]

theorem wraps_iff (wide : target.width? = some width) :
    scalar.Wraps number target width ↔
      scalar.type = target ∧ scalar.integer? = some (number.bmod (2 ^ width)) := by
  have modulus : ((2 ^ width : Nat) : Int) = 2 ^ width := by push_cast; rfl
  constructor
  · rintro ⟨type, own, integral, congruent⟩
    obtain ⟨least, greatest⟩ := integer_range integral (type ▸ wide)
    rw [← modulus] at congruent
    refine ⟨type, integral.trans (congrArg some ?_)⟩
    calc own = own.bmod (2 ^ width) :=
          (bmod_of_range (DataType.width_pos wide) least greatest).symm
      _ = (own % (2 ^ width : Nat)).bmod (2 ^ width) := (Int.emod_bmod ..).symm
      _ = (number % (2 ^ width : Nat)).bmod (2 ^ width) := by rw [congruent]
      _ = number.bmod (2 ^ width) := Int.emod_bmod ..
  · rintro ⟨type, integral⟩
    refine ⟨type, _, integral, ?_⟩
    rw [← modulus]
    exact Int.bmod_emod

theorem exists_cast_legacy (integral : value.integer? = some number)
    (wide : target.width? = some width) :
    ∃ result, value.cast target .legacy = .ok result ∧ result.Wraps number target width := by
  obtain ⟨result, done, type, wrapped⟩ := exists_castToIntegral_legacy wide number
  rw [cast_integral integral wide]
  exact ⟨result, done, (wraps_iff wide).mpr ⟨type, wrapped⟩⟩

theorem Wraps.unique (wide : target.width? = some width) (wraps : scalar.Wraps number target width)
    (also : other.Wraps number target width) : other = scalar := by
  obtain ⟨type, same⟩ := (wraps_iff wide).mp wraps
  obtain ⟨alike, known⟩ := (wraps_iff wide).mp also
  exact eq_of_integer (alike.trans type.symm) known same

theorem exists_cast_inside (integral : value.integer? = some number)
    (wide : target.width? = some width) (least : -2 ^ (width - 1) ≤ number)
    (greatest : number < 2 ^ (width - 1)) (mode : CastMode) :
    ∃ result, value.cast target mode = .ok result ∧ result.type = target ∧
      result.integer? = some number := by
  rw [cast_integral integral wide]
  exact exists_castToIntegral_inside wide least greatest mode

theorem cast_ansi_outside (integral : value.integer? = some number)
    (wide : target.width? = some width)
    (outside : ¬(-2 ^ (width - 1) ≤ number ∧ number ≤ 2 ^ (width - 1) - 1)) :
    value.cast target .ansi = .error (.overflow (toString number) target) := by
  have bounds := DataType.bounds_of_width wide
  obtain ⟨result, wrapped⟩ := exists_wrapped? bounds number
  rw [cast_integral integral wide, castToIntegral_of_bounds bounds wrapped, if_pos]
  exact ⟨rfl, by omega⟩

theorem cast_ansi_ok_iff (integral : value.integer? = some number)
    (wide : target.width? = some width) (result : Scalar) :
    value.cast target .ansi = .ok result ↔
      (-2 ^ (width - 1) ≤ number ∧ number ≤ 2 ^ (width - 1) - 1) ∧ result.type = target ∧
        result.integer? = some number := by
  by_cases inside : -2 ^ (width - 1) ≤ number ∧ number ≤ 2 ^ (width - 1) - 1
  · obtain ⟨same, done, type, kept⟩ :=
      exists_cast_inside integral wide inside.1 (by omega) .ansi
    rw [done]
    constructor
    · rintro ⟨⟩
      exact ⟨inside, type, kept⟩
    · rintro ⟨-, alike, also⟩
      rw [eq_of_integer (type.trans alike.symm) kept also]
  · rw [cast_ansi_outside integral wide inside]
    exact ⟨nofun, fun claimed => absurd claimed.1 inside⟩

/-- A number keeps its range in a wider type. -/
theorem range_of_narrow {narrow : Nat} (integral : value.integer? = some number)
    (own : value.type.width? = some narrow) (wider : narrow ≤ width) :
    -2 ^ (width - 1) ≤ number ∧ number < 2 ^ (width - 1) := by
  obtain ⟨least, greatest⟩ := integer_range integral own
  have grows : (2 : Int) ^ (narrow - 1) ≤ 2 ^ (width - 1) := by
    exact_mod_cast Nat.pow_le_pow_right Nat.two_pos (Nat.sub_le_sub_right wider 1)
  omega

theorem cast_back {narrow : Nat} (integral : value.integer? = some number)
    (wide : target.width? = some width) (own : value.type.width? = some narrow)
    (wider : narrow ≤ width) (mode back : CastMode) :
    ∃ widened, value.cast target mode = .ok widened ∧
      widened.cast value.type back = .ok value := by
  obtain ⟨least, greatest⟩ := range_of_narrow integral own wider
  obtain ⟨widened, done, -, kept⟩ := exists_cast_inside integral wide least greatest mode
  obtain ⟨low, high⟩ := integer_range integral own
  obtain ⟨again, returned, type, same⟩ := exists_cast_inside kept own low high back
  refine ⟨widened, done, ?_⟩
  rw [returned, eq_of_integer type same integral]

theorem cast_through {middle : DataType} {middleWidth : Nat}
    (integral : value.integer? = some number) (wide : target.width? = some width)
    (between : middle.width? = some middleWidth) (wider : width ≤ middleWidth) :
    ∃ passed, value.cast middle .legacy = .ok passed ∧
      passed.cast target .legacy = value.cast target .legacy := by
  obtain ⟨passed, done, -, kept⟩ := exists_castToIntegral_legacy between number
  obtain ⟨direct, reached, type, same⟩ := exists_castToIntegral_legacy wide number
  obtain ⟨result, again, alike, also⟩ :=
    exists_castToIntegral_legacy wide (number.bmod (2 ^ middleWidth))
  rw [Int.bmod_bmod_of_dvd (Nat.pow_dvd_pow 2 wider)] at also
  refine ⟨passed, (cast_integral integral between _).trans done, ?_⟩
  rw [cast_integral kept wide, cast_integral integral wide, again, reached,
    eq_of_integer (alike.trans type.symm) also same]

/-- A legacy cast of an integer gives the one value of the target type that is congruent to it
modulo the range of the type. An ANSI cast keeps the number where the type has it, and reports it
where not. So a wider type and back changes nothing, and a legacy cast may take the way through any
type that is as wide as the target. -/
theorem cast_integral_exact (integral : value.integer? = some number)
    (wide : target.width? = some width) :
    target.integralBounds? = some (-2 ^ (width - 1), 2 ^ (width - 1) - 1) ∧
    (∃ result, value.cast target .legacy = .ok result ∧ result.Wraps number target width ∧
      ∀ other : Scalar, other.Wraps number target width → other = result) ∧
    (∀ result, value.cast target .ansi = .ok result ↔
      (-2 ^ (width - 1) ≤ number ∧ number ≤ 2 ^ (width - 1) - 1) ∧ result.type = target ∧
        result.integer? = some number) ∧
    (¬(-2 ^ (width - 1) ≤ number ∧ number ≤ 2 ^ (width - 1) - 1) →
      value.cast target .ansi = .error (.overflow (toString number) target)) ∧
    (∀ narrow, value.type.width? = some narrow → narrow ≤ width → ∀ mode back,
      ∃ widened, value.cast target mode = .ok widened ∧
        widened.cast value.type back = .ok value) ∧
    ∀ middle middleWidth, middle.width? = some middleWidth → width ≤ middleWidth →
      ∃ passed, value.cast middle .legacy = .ok passed ∧
        passed.cast target .legacy = value.cast target .legacy := by
  obtain ⟨result, done, wraps⟩ := exists_cast_legacy integral wide
  refine ⟨DataType.bounds_of_width wide,
    ⟨result, done, wraps, fun other also => wraps.unique wide also⟩,
    cast_ansi_ok_iff integral wide, cast_ansi_outside integral wide, ?_, ?_⟩
  · intro narrow own wider mode back
    exact cast_back integral wide own wider mode back
  · intro middle middleWidth between wider
    exact cast_through integral wide between wider

/-- Three hundred does not fit into a byte, and survives the way through an integer. -/
theorem cast_integral_exact_threeHundred :
    (short 300).integer? = some 300 ∧ DataType.byte.width? = some 8 ∧
      (short 300).cast .byte .ansi = .error (.overflow (toString (300 : Int)) .byte) ∧
      (∃ result, (short 300).cast .byte .legacy = .ok result ∧ result.Wraps 300 .byte 8) ∧
      ∃ passed, (short 300).cast .int .legacy = .ok passed ∧
        passed.cast .byte .legacy = (short 300).cast .byte .legacy := by
  have integral : (short 300).integer? = some 300 := rfl
  have wide : DataType.byte.width? = some 8 := rfl
  obtain ⟨-, ⟨result, done, wraps, -⟩, -, outside, -, through⟩ := cast_integral_exact integral wide
  exact ⟨integral, wide, outside (by decide), ⟨result, done, wraps⟩,
    through .int 32 rfl (by decide)⟩

end Scalar

end GpuPlacement
