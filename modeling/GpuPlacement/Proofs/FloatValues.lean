import Mathlib.Algebra.Order.Field.Power
import Mathlib.Data.Rat.Floor
import Mathlib.Tactic.FieldSimp
import Mathlib.Tactic.Linarith
import Mathlib.Tactic.Positivity
import Mathlib.Tactic.Ring
import GpuPlacement.Number.Binary
/-!
The numbers that words of a binary format denote. A significand and an exponent that a format has a
word for come back from the word that they are rounded to, so the way into a wider format is exact.
-/
namespace GpuPlacement

/-- A number without its fraction, nearer to zero. -/
def towardZero (number : ℚ) : ℤ :=
  if 0 ≤ number then ⌊number⌋ else ⌈number⌉

theorem towardZero_neg (number : ℚ) : towardZero (-number) = -towardZero number := by
  unfold towardZero
  rcases lt_trichotomy number 0 with below | rfl | above
  · rw [if_pos (by linarith), if_neg (by linarith), Int.floor_neg]
  · simp
  · rw [if_neg (by linarith), if_pos above.le, Int.ceil_neg]

theorem mul_two_zpow_natCast (significand power : ℕ) :
    (significand * 2 ^ (power : ℤ) : ℚ) = ((significand * 2 ^ power : ℕ) : ℤ) := by
  push_cast
  rw [zpow_natCast]

namespace FloatDatum

/-- The number that a finite datum denotes. -/
def value? : FloatDatum → Option ℚ
  | .finite negative significand exponent =>
    some ((if negative then -1 else 1) * (significand * 2 ^ exponent))
  | _ => none

theorem wholePart_eq (significand : Nat) (exponent : Int) :
    (wholePart significand exponent : ℤ) = ⌊(significand * 2 ^ exponent : ℚ)⌋ := by
  unfold wholePart
  split
  next natural =>
    obtain ⟨power, rfl⟩ := Int.eq_ofNat_of_zero_le natural
    rw [mul_two_zpow_natCast, Int.floor_intCast]
    rfl
  next fraction =>
    obtain ⟨power, rfl⟩ := Int.exists_eq_neg_ofNat (le_of_not_ge fraction)
    have quotient : (significand * 2 ^ (-(power : ℤ)) : ℚ) = significand / (2 ^ power : ℕ) := by
      push_cast
      rw [zpow_neg, zpow_natCast, div_eq_mul_inv]
    rw [quotient, Rat.floor_natCast_div_natCast]
    simp

theorem truncate?_eq (datum : FloatDatum) : datum.truncate? = datum.value?.map towardZero := by
  cases datum with
  | notANumber | infinite => rfl
  | finite negative significand exponent =>
      have positive : (0 : ℚ) ≤ significand * 2 ^ exponent := by positivity
      have whole : towardZero (significand * 2 ^ exponent) = wholePart significand exponent := by
        rw [wholePart_eq, towardZero, if_pos positive]
      unfold truncate? value?
      cases negative with
      | false => simp [whole]
      | true => simp [towardZero_neg, whole]

end FloatDatum

namespace BinaryFormat

/-- A significand and an exponent that the format has words for. -/
structure Holds (format : BinaryFormat) (significand : Nat) (exponent : Int) : Prop where
  significand : significand < 2 ^ (format.fractionBits + 1)
  least : format.leastExponent ≤ exponent
  greatest : exponent + 3 ≤ format.leastExponent + (2 ^ format.exponentBits : Nat)

theorem Holds.double {significand : Nat} {exponent : Int}
    (holds : single.Holds significand exponent) : double.Holds significand exponent where
  significand := holds.significand.trans_le (by decide)
  least := le_trans (by decide) holds.least
  greatest := holds.greatest.trans (by decide)

theorem infinityField_lt (format : BinaryFormat) : format.infinityField < format.signWeight := by
  unfold infinityField signWeight
  rw [Nat.pow_eq, Nat.pow_eq, Nat.pow_eq, Nat.pow_add]
  exact Nat.mul_lt_mul_of_pos_right (Nat.sub_lt (Nat.two_pow_pos _) Nat.one_pos)
    (Nat.two_pow_pos _)

theorem infinityField_pos (format : BinaryFormat) {significand : Nat} {exponent : Int}
    (holds : format.Holds significand exponent) : 0 < format.infinityField := by
  have room := holds.greatest
  have least := holds.least
  have fields : 1 < 2 ^ format.exponentBits := by omega
  exact Nat.mul_pos (Nat.sub_pos_of_lt fields) (Nat.two_pow_pos _)

theorem two_pow_width (format : BinaryFormat) : 2 ^ format.width = 2 * format.signWeight := by
  rw [width, signWeight, Nat.pow_eq, ← Nat.pow_succ']
  congr 1
  omega

end BinaryFormat

namespace FloatWord

variable {format : BinaryFormat}

theorem toNat_ofMagnitude {magnitude : Nat} (small : magnitude < format.signWeight)
    (negative : Bool) : (ofMagnitude negative magnitude : FloatWord format).bits.toNat =
      magnitude + if negative then format.signWeight else 0 := by
  rw [ofMagnitude, BitVec.toNat_ofNat, BinaryFormat.two_pow_width]
  apply Nat.mod_eq_of_lt
  split <;> omega

theorem magnitudeField_ofMagnitude {magnitude : Nat} (small : magnitude < format.signWeight)
    (negative : Bool) :
    (ofMagnitude negative magnitude : FloatWord format).magnitudeField = magnitude := by
  rw [magnitudeField, toNat_ofMagnitude small]
  split
  · rw [Nat.add_mod_right, Nat.mod_eq_of_lt small]
  · rw [Nat.add_zero, Nat.mod_eq_of_lt small]

theorem negative_ofMagnitude {magnitude : Nat} (small : magnitude < format.signWeight)
    (negative : Bool) :
    (ofMagnitude negative magnitude : FloatWord format).negative = negative := by
  rw [FloatWord.negative, toNat_ofMagnitude small]
  cases negative
  · simpa using small
  · simp

/-- A significand in the fraction field, and the steps of its exponent above the least one. -/
theorem datum_ofMagnitude {steps significand : Nat}
    (short : significand < 2 ^ (format.fractionBits + 1))
    (normal : steps = 0 ∨ 2 ^ format.fractionBits ≤ significand)
    (finite : steps * 2 ^ format.fractionBits + significand < format.infinityField)
    (negative : Bool) :
    (ofMagnitude negative (steps * 2 ^ format.fractionBits + significand) :
        FloatWord format).datum =
      .finite negative significand (format.leastExponent + steps) := by
  have small := finite.trans format.infinityField_lt
  unfold datum
  rw [magnitudeField_ofMagnitude small, negative_ofMagnitude small]
  dsimp only
  rw [if_neg (by omega), if_neg (by omega), Nat.pow_eq]
  generalize hidden : 2 ^ format.fractionBits = unit at *
  have positive : 0 < unit := hidden ▸ Nat.two_pow_pos _
  rw [Nat.pow_succ, hidden] at short
  split
  next subnormal =>
    obtain rfl : steps = 0 := by
      by_contra more
      have := Nat.le_mul_of_pos_left unit (Nat.pos_of_ne_zero more)
      omega
    simp
  next large =>
    have ordinary : unit ≤ significand := by
      rcases normal with rfl | ordinary
      · omega
      · exact ordinary
    obtain ⟨fraction, rfl⟩ := Nat.exists_eq_add_of_le ordinary
    have field : steps * unit + (unit + fraction) = fraction + unit * (steps + 1) := by ring
    rw [field, Nat.add_mul_mod_self_left, Nat.add_mul_div_left _ _ positive,
      Nat.mod_eq_of_lt (by omega), Nat.div_eq_of_lt (by omega)]
    congr 1
    push_cast
    omega

theorem datum_zero (finite : 0 < format.infinityField) (negative : Bool) :
    (zero negative : FloatWord format).datum = .finite negative 0 format.leastExponent := by
  have datum : (ofMagnitude negative (0 * 2 ^ format.fractionBits + 0) : FloatWord format).datum =
      .finite negative 0 (format.leastExponent + (0 : ℕ)) :=
    datum_ofMagnitude (Nat.two_pow_pos _) (.inl rfl) (by simpa using finite) negative
  simpa [zero] using datum

theorem roundHalfEven_exact {num den whole : Nat} (positive : 0 < den)
    (exact : num = whole * den) : roundHalfEven num den = whole := by
  rw [exact, roundHalfEven, Nat.mul_mod_left, Nat.mul_div_cancel _ positive]
  simp [positive]

/-- A quotient divided by a power of two is a quotient again, with the power on one of its sides. -/
theorem exists_scaled {α : Type} (f : Nat → Nat → α) (num : Nat) {den : Nat} (positive : 0 < den)
    (place : Int) :
    ∃ upper lower : Nat, 0 < lower ∧ (upper / lower : ℚ) = num / den / 2 ^ place ∧
      (if 0 ≤ place then f num (den * Nat.pow 2 place.toNat)
        else f (num * Nat.pow 2 (-place).toNat) den) = f upper lower := by
  split
  next up =>
    obtain ⟨power, rfl⟩ := Int.eq_ofNat_of_zero_le up
    refine ⟨num, den * 2 ^ power, by positivity, ?_, rfl⟩
    push_cast
    rw [zpow_natCast, div_div]
  next down =>
    obtain ⟨power, rfl⟩ := Int.exists_eq_neg_ofNat (le_of_not_ge down)
    refine ⟨num * 2 ^ power, den, positive, ?_, by simp⟩
    push_cast
    rw [zpow_neg, zpow_natCast, div_inv_eq_mul, div_mul_eq_mul_div]

/-- Two powers of two around a quotient, as far apart as two binary digits. -/
theorem quotient_between {num den : Nat} (given : num ≠ 0) (positive : den ≠ 0) :
    (2 : ℚ) ^ ((num.log2 : ℤ) - den.log2 - 1) ≤ num / den ∧
      (num / den : ℚ) < 2 ^ ((num.log2 : ℤ) - den.log2 + 1) := by
  have numLow : (2 ^ num.log2 : ℚ) ≤ num := by exact_mod_cast Nat.log2_self_le given
  have numHigh : (num : ℚ) < 2 ^ (num.log2 + 1) := by exact_mod_cast Nat.lt_log2_self
  have denLow : (2 ^ den.log2 : ℚ) ≤ den := by exact_mod_cast Nat.log2_self_le positive
  have denHigh : (den : ℚ) < 2 ^ (den.log2 + 1) := by exact_mod_cast Nat.lt_log2_self
  have denPos : (0 : ℚ) < den := by positivity
  constructor
  · have low : (2 : ℚ) ^ ((num.log2 : ℤ) - den.log2 - 1) = 2 ^ num.log2 / 2 ^ (den.log2 + 1) := by
      rw [sub_sub, zpow_sub₀ two_ne_zero]
      norm_cast
    rw [low]
    exact div_le_div₀ (by positivity) numLow denPos denHigh.le
  · have high : (2 : ℚ) ^ ((num.log2 : ℤ) - den.log2 + 1) = 2 ^ (num.log2 + 1) / 2 ^ den.log2 := by
      rw [sub_add_eq_add_sub, zpow_sub₀ two_ne_zero]
      norm_cast
    rw [high]
    exact div_lt_div₀ numHigh denLow (by positivity) (by positivity)

theorem pow_mul_zpow (digits : Nat) (place : Int) :
    (2 ^ digits * 2 ^ place : ℚ) = 2 ^ (digits + place) := by
  rw [zpow_add₀ two_ne_zero, zpow_natCast]

/-- The last place leaves room for the significand, and leaves none unused above the least one. -/
theorem lastPlace_between (format : BinaryFormat) {num den : Nat} (given : num ≠ 0)
    (positive : den ≠ 0) :
    (num / den : ℚ) < 2 ^ (format.fractionBits + 1) * 2 ^ lastPlace format num den ∧
      (lastPlace format num den = format.leastExponent ∨
        (2 ^ format.fractionBits * 2 ^ lastPlace format num den : ℚ) ≤ num / den) := by
  obtain ⟨low, high⟩ := quotient_between given positive
  unfold lastPlace
  dsimp only
  generalize guess : (num.log2 : ℤ) - den.log2 - format.fractionBits - 1 = least
  obtain ⟨upper, lower, lowerPos, scaled, same⟩ :=
    exists_scaled (fun upper lower => upper / lower) num (Nat.pos_of_ne_zero positive) least
  rw [same, Nat.pow_eq]
  have fits : upper / lower < 2 ^ (format.fractionBits + 1) ↔
      (num / den : ℚ) < 2 ^ (format.fractionBits + 1) * 2 ^ least := by
    have lowerPos' : (0 : ℚ) < lower := by exact_mod_cast lowerPos
    rw [← div_lt_iff₀ (by positivity), ← scaled, div_lt_iff₀ lowerPos',
      Nat.div_lt_iff_lt_mul lowerPos]
    norm_cast
  obtain ⟨place, chosen, below, above⟩ : ∃ place,
      (if upper / lower < 2 ^ (format.fractionBits + 1) then least else least + 1) = place ∧
        (num / den : ℚ) < 2 ^ (format.fractionBits + 1) * 2 ^ place ∧
        (2 ^ format.fractionBits * 2 ^ place : ℚ) ≤ num / den := by
    by_cases short : upper / lower < 2 ^ (format.fractionBits + 1)
    · have start : (format.fractionBits : ℤ) + least = num.log2 - den.log2 - 1 := by omega
      refine ⟨least, if_pos short, fits.mp short, ?_⟩
      rwa [pow_mul_zpow, start]
    · have last : ((format.fractionBits + 1 : ℕ) : ℤ) + (least + 1) = num.log2 - den.log2 + 1 := by
        push_cast
        omega
      have next : (format.fractionBits : ℤ) + (least + 1) = (format.fractionBits + 1 : ℕ) + least :=
        by push_cast; ring
      have long := le_of_not_gt (mt fits.mpr short)
      refine ⟨least + 1, if_neg short, ?_, ?_⟩
      · rwa [pow_mul_zpow, last]
      · rwa [pow_mul_zpow, next, ← pow_mul_zpow]
  rw [chosen]
  constructor
  · refine below.trans_le (mul_le_mul_of_nonneg_left ?_ (by positivity))
    exact zpow_le_zpow_right₀ one_le_two (le_max_right _ _)
  · rcases le_total place format.leastExponent with lower | higher
    · exact .inl (max_eq_left lower)
    · rw [max_eq_right higher]
      exact .inr above

/-- What a format holds needs no place below the least one and none above its own exponent. -/
theorem lastPlace_le {num den significand : Nat} {exponent : Int}
    (holds : format.Holds significand exponent) (given : num ≠ 0) (positive : den ≠ 0)
    (same : (num / den : ℚ) = significand * 2 ^ exponent) :
    lastPlace format num den ≤ exponent := by
  obtain ⟨-, above⟩ := lastPlace_between format given positive
  by_contra beyond
  have full := above.resolve_left (by have := holds.least; omega)
  have short : (significand : ℚ) < 2 ^ (format.fractionBits + 1) := by
    exact_mod_cast holds.significand
  have next : (exponent : ℤ) + 1 ≤ lastPlace format num den := by omega
  have : (2 ^ format.fractionBits * 2 ^ lastPlace format num den : ℚ) <
      2 ^ format.fractionBits * 2 ^ lastPlace format num den :=
    calc (2 ^ format.fractionBits * 2 ^ lastPlace format num den : ℚ)
        ≤ significand * 2 ^ exponent := full.trans same.le
      _ < 2 ^ (format.fractionBits + 1) * 2 ^ exponent :=
        mul_lt_mul_of_pos_right short (by positivity)
      _ = 2 ^ format.fractionBits * 2 ^ (exponent + 1) := by
        rw [zpow_add_one₀ two_ne_zero]
        ring
      _ ≤ 2 ^ format.fractionBits * 2 ^ lastPlace format num den :=
        mul_le_mul_of_nonneg_left (zpow_le_zpow_right₀ one_le_two next) (by positivity)
  exact lt_irrefl _ this

theorem least_le_lastPlace (format : BinaryFormat) (num den : Nat) :
    format.leastExponent ≤ lastPlace format num den :=
  le_max_left _ _

/-- A whole number of units in the last place is rounded to itself. -/
theorem datum_ofQuotient {num den kept : Nat} (given : num ≠ 0) (positive : den ≠ 0)
    (exact : (num / den : ℚ) = kept * 2 ^ lastPlace format num den)
    (room : lastPlace format num den + 3 ≤
      format.leastExponent + (2 ^ format.exponentBits : Nat))
    (negative : Bool) :
    (ofQuotient negative num den : FloatWord format).datum =
      .finite negative kept (lastPlace format num den) := by
  obtain ⟨below, above⟩ := lastPlace_between format given positive
  have least := least_le_lastPlace format num den
  rw [ofQuotient, if_neg given]
  dsimp only
  generalize lastPlace format num den = place at *
  have unit : (0 : ℚ) < 2 ^ place := by positivity
  rw [exact] at below above
  have short : kept < 2 ^ (format.fractionBits + 1) := by
    exact_mod_cast (mul_lt_mul_iff_left₀ unit).mp below
  have normal : place = format.leastExponent ∨ 2 ^ format.fractionBits ≤ kept :=
    above.imp_right fun full => by exact_mod_cast (mul_le_mul_iff_left₀ unit).mp full
  obtain ⟨upper, lower, lowerPos, scaled, same⟩ :=
    exists_scaled roundHalfEven num (Nat.pos_of_ne_zero positive) place
  have whole : upper = kept * lower := by
    rw [exact, mul_div_cancel_right₀ _ unit.ne', div_eq_iff (by positivity)] at scaled
    exact_mod_cast scaled
  obtain ⟨steps, rfl⟩ := Int.le.dest least
  have finite : steps * 2 ^ format.fractionBits + kept < format.infinityField := by
    have field : format.infinityField =
      (2 ^ format.exponentBits - 1) * 2 ^ format.fractionBits := rfl
    have fields : steps + 2 ≤ 2 ^ format.exponentBits - 1 := by omega
    calc steps * 2 ^ format.fractionBits + kept
        < steps * 2 ^ format.fractionBits + 2 ^ (format.fractionBits + 1) :=
          Nat.add_lt_add_left short _
      _ = (steps + 2) * 2 ^ format.fractionBits := by ring
      _ ≤ format.infinityField := field ▸ Nat.mul_le_mul_right _ fields
  rw [same, roundHalfEven_exact lowerPos whole, add_sub_cancel_left, Int.toNat_natCast,
    Nat.pow_eq, min_eq_right finite.le]
  refine datum_ofMagnitude short (normal.imp_left fun same => ?_) finite negative
  omega

/-- A quotient that the format holds keeps its value when it is rounded to a word. -/
theorem exists_datum_ofQuotient {num den significand : Nat} {exponent : Int}
    (holds : format.Holds significand exponent) (positive : den ≠ 0)
    (same : (num / den : ℚ) = significand * 2 ^ exponent) (negative : Bool) :
    ∃ kept place, (ofQuotient negative num den : FloatWord format).datum =
        .finite negative kept place ∧
      (kept * 2 ^ place : ℚ) = significand * 2 ^ exponent := by
  have room := holds.greatest
  by_cases given : num = 0
  · have nothing : (significand * 2 ^ exponent : ℚ) = 0 := by simp [← same, given]
    refine ⟨0, format.leastExponent, ?_, by simp [nothing]⟩
    rw [ofQuotient, if_pos given]
    exact datum_zero (format.infinityField_pos holds) negative
  · have under := lastPlace_le holds given positive same
    obtain ⟨shift, shifted⟩ := Int.le.dest under
    have kept : ((significand * 2 ^ shift : ℕ) * 2 ^ lastPlace format num den : ℚ) =
        significand * 2 ^ exponent := by
      rw [← shifted, zpow_add₀ two_ne_zero, zpow_natCast]
      push_cast
      ring
    exact ⟨_, _, datum_ofQuotient given positive (same.trans kept.symm) (by omega) negative, kept⟩

/-- A datum whose number the format holds keeps its sign and its number. -/
theorem exists_datum_ofDatum {significand given : Nat} {exponent place : Int}
    (holds : format.Holds significand exponent)
    (same : (given * 2 ^ place : ℚ) = significand * 2 ^ exponent) (negative : Bool) :
    ∃ kept last, (ofDatum (.finite negative given place) : FloatWord format).datum =
        .finite negative kept last ∧ (kept * 2 ^ last : ℚ) = significand * 2 ^ exponent := by
  obtain ⟨num, den, positive, quotient, word⟩ : ∃ num den : Nat, den ≠ 0 ∧
      (num / den : ℚ) = given * 2 ^ place ∧
      (ofDatum (.finite negative given place) : FloatWord format) =
        ofQuotient negative num den := by
    rw [ofDatum]
    split
    next up =>
      obtain ⟨power, rfl⟩ := Int.eq_ofNat_of_zero_le up
      refine ⟨_, 1, one_ne_zero, ?_, rfl⟩
      push_cast
      simp
    next down =>
      obtain ⟨power, rfl⟩ := Int.exists_eq_neg_ofNat (le_of_not_ge down)
      refine ⟨_, _, ?_, ?_, rfl⟩
      · simp
      · simp [div_eq_mul_inv]
  rw [word]
  exact exists_datum_ofQuotient holds positive (quotient.trans same) negative

/-- The word of a datum that the format holds denotes the same number. -/
theorem value?_ofDatum {significand : Nat} {exponent : Int}
    (holds : format.Holds significand exponent) (negative : Bool) :
    (ofDatum (.finite negative significand exponent) : FloatWord format).datum.value? =
      (FloatDatum.finite negative significand exponent).value? := by
  obtain ⟨kept, place, datum, value⟩ := exists_datum_ofDatum holds rfl negative
  rw [datum, FloatDatum.value?, FloatDatum.value?, value]

/-- The fields of a finite word: its magnitude is made up of the steps of its exponent above the
least one and its significand, which leaves no room in the format above the least exponent. -/
theorem fields_of_datum {word : FloatWord format} {negative : Bool} {significand : Nat}
    {exponent : Int} (finite : word.datum = .finite negative significand exponent) :
    word.negative = negative ∧ significand < 2 ^ (format.fractionBits + 1) ∧
      ∃ steps : Nat, exponent = format.leastExponent + steps ∧
        (steps = 0 ∨ 2 ^ format.fractionBits ≤ significand) ∧
        word.magnitudeField = steps * 2 ^ format.fractionBits + significand ∧
        word.magnitudeField < format.infinityField := by
  have unit := Nat.two_pow_pos format.fractionBits
  unfold datum at finite
  dsimp only at finite
  rw [Nat.pow_eq] at finite
  rw [Nat.pow_succ]
  generalize word.magnitudeField = magnitude at *
  generalize 2 ^ format.fractionBits = hidden at *
  split at finite
  · cases finite
  split at finite
  · cases finite
  have below : magnitude < format.infinityField := by omega
  split at finite
  next subnormal =>
    cases finite
    exact ⟨rfl, by omega, 0, by simp, .inl rfl, by simp, below⟩
  next normal =>
    cases finite
    have fraction := Nat.mod_lt magnitude unit
    obtain ⟨steps, quotient⟩ := Nat.exists_eq_add_one_of_ne_zero
      (Nat.div_pos (Nat.le_of_not_lt normal) unit).ne'
    have whole := Nat.div_add_mod magnitude hidden
    rw [quotient, Nat.mul_add_one, Nat.mul_comm] at whole
    exact ⟨rfl, by omega, steps, by rw [quotient]; push_cast; ring,
      .inr (Nat.le_add_right _ _), by omega, below⟩

/-- A format holds the significands and exponents of its own finite words. -/
theorem holds_of_datum {word : FloatWord format} {negative : Bool} {significand : Nat}
    {exponent : Int} (fields : 2 ≤ format.exponentBits)
    (finite : word.datum = .finite negative significand exponent) :
    format.Holds significand exponent := by
  obtain ⟨-, short, steps, rfl, full, magnitude, below⟩ := fields_of_datum finite
  refine ⟨short, by omega, ?_⟩
  have several : 2 ^ 2 ≤ 2 ^ format.exponentBits := Nat.pow_le_pow_right Nat.two_pos fields
  rcases full with rfl | large
  · omega
  · have field : (steps + 1) * 2 ^ format.fractionBits <
        (2 ^ format.exponentBits - 1) * 2 ^ format.fractionBits := by
      rw [Nat.add_one_mul]
      exact (Nat.add_le_add_left large _).trans_lt (magnitude ▸ below)
    have := Nat.lt_of_mul_lt_mul_right field
    omega

/-- Every single precision word has its number in double precision. -/
theorem value?_convert_double (word : Binary32) :
    (word.convert .double).datum.value? = word.datum.value? := by
  rw [convert]
  cases seen : word.datum with
  | notANumber => decide +kernel
  | infinite negative => cases negative <;> decide +kernel
  | finite negative significand exponent =>
      exact value?_ofDatum (holds_of_datum (by decide) seen).double negative

end FloatWord

end GpuPlacement
