import GpuPlacement.Number.Shortest
import GpuPlacement.Proofs.FloatValues
/-!
The search for the fewest digits. Of all decimal grids on which some multiple rounds to the number,
the search finds the coarsest one, and on it the multiple nearest to the number. No other decimal
has these properties.
-/
namespace GpuPlacement

/-- The multiple of a power of ten that is nearest to a number, of those that are accepted for it;
of two equally near ones the larger one. -/
structure NearestMultiple (accepted : ℚ → Prop) (number : ℚ) (place : Int) (digits : Nat) :
    Prop where
  accepts : accepted (digits * 10 ^ place)
  near : ∀ multiple : Nat, accepted (multiple * 10 ^ place) →
    |number - digits * 10 ^ place| ≤ |number - multiple * 10 ^ place|
  upward : ∀ multiple : Nat, accepted (multiple * 10 ^ place) →
    |number - digits * 10 ^ place| = |number - multiple * 10 ^ place| → multiple ≤ digits

/-- The decimal on the coarsest grid with a multiple that is accepted for a number, and there the
nearest one to the number. -/
structure ShortestDecimal (accepted : ℚ → Prop) (number : ℚ) (decimal : DecimalDigits) : Prop where
  nearest : NearestMultiple accepted number decimal.exponent decimal.digits
  coarsest : ∀ multiple : Nat, multiple ≠ 0 →
    ¬accepted (multiple * 10 ^ (decimal.exponent + 1))

section

variable {accepted : ℚ → Prop} {number : ℚ}

theorem mul_ten_zpow (multiple : Nat) (place : Int) :
    (multiple * 10 ^ (place + 1) : ℚ) = (multiple * 10 : ℕ) * 10 ^ place := by
  rw [zpow_add_one₀ (by norm_num)]
  push_cast
  ring

/-- A multiple that ends in zero is the nearest one on the next grid, too. -/
theorem NearestMultiple.coarser {place : Int} {digits : Nat}
    (nearest : NearestMultiple accepted number place (digits * 10)) :
    NearestMultiple accepted number (place + 1) digits := by
  obtain ⟨accepts, near, upward⟩ := nearest
  refine ⟨by rwa [mul_ten_zpow], fun multiple known => ?_, fun multiple known same => ?_⟩
  · rw [mul_ten_zpow] at known ⊢
    rw [mul_ten_zpow]
    exact near _ known
  · rw [mul_ten_zpow] at known same
    rw [mul_ten_zpow] at same
    exact Nat.le_of_mul_le_mul_right (upward _ known same) (by decide)

/-- Every multiple is one of the grids below, so no coarser grid has a decimal. -/
theorem ShortestDecimal.exponent_le {decimal other : DecimalDigits}
    (shortest : ShortestDecimal accepted number decimal)
    (accepts : accepted (other.digits * 10 ^ other.exponent)) (given : other.digits ≠ 0) :
    other.exponent ≤ decimal.exponent := by
  by_contra above
  obtain ⟨zeros, split⟩ := Int.le.dest (Int.add_one_le_of_lt (Int.lt_of_not_ge above))
  refine shortest.coarsest (other.digits * 10 ^ zeros)
    (Nat.mul_ne_zero given (Nat.pow_pos (by decide)).ne') ?_
  rw [← split, zpow_add₀ (by norm_num), zpow_natCast] at accepts
  convert accepts using 1
  push_cast
  ring

theorem ShortestDecimal.unique (positive : ∀ number, accepted number → 0 < number)
    {decimal other : DecimalDigits} (shortest : ShortestDecimal accepted number decimal)
    (shortest' : ShortestDecimal accepted number other) : decimal = other := by
  have given {decimal : DecimalDigits} (h : ShortestDecimal accepted number decimal) :
      decimal.digits ≠ 0 := by
    intro zero
    simpa [zero] using positive _ h.nearest.accepts
  obtain ⟨digits, place⟩ := decimal
  obtain ⟨digits', place'⟩ := other
  obtain rfl : place = place' := Int.le_antisymm
    (shortest'.exponent_le shortest.nearest.accepts (given shortest))
    (shortest.exponent_le shortest'.nearest.accepts (given shortest'))
  obtain ⟨accepts, near, upward⟩ := shortest.nearest
  obtain ⟨accepts', near', upward'⟩ := shortest'.nearest
  have apart := le_antisymm (near digits' accepts') (near' digits accepts)
  obtain rfl : digits = digits' := Nat.le_antisymm
    (upward' digits accepts apart.symm) (upward digits' accepts' apart)
  rfl

end

theorem pow_toNat {base : ℚ} (nonzero : base ≠ 0) (power : ℤ) :
    base ^ power.toNat = base ^ power * base ^ (-power).toNat := by
  rw [← zpow_natCast, ← zpow_natCast, ← zpow_add₀ nonzero]
  congr 1
  have := Int.toNat_sub_toNat_neg power
  omega

namespace DecimalDigits

namespace Rounding

/-- The number that is to be written. -/
def number (rounding : Rounding) : ℚ :=
  rounding.value * 2 ^ rounding.exponent

/-- The numbers that round to it. -/
def Owns (rounding : Rounding) (number : ℚ) : Prop :=
  if rounding.inclusive then
    rounding.low * 2 ^ rounding.exponent ≤ number ∧ number ≤ rounding.high * 2 ^ rounding.exponent
  else
    rounding.low * 2 ^ rounding.exponent < number ∧ number < rounding.high * 2 ^ rounding.exponent

/-- The least of these numbers is positive, the greatest half a unit away, and the number has no
more digits than a double precision word. -/
structure Sound (rounding : Rounding) : Prop where
  positive : 0 < rounding.low
  low : rounding.low < rounding.value
  high : rounding.high = rounding.value + 2
  short : rounding.value < 10 ^ 18

variable {rounding : Rounding} {place : Int}

/-- A scale brings a step of the grid and a quarter unit to one unit. -/
theorem exists_scale (rounding : Rounding) (place : Int) : ∃ factor : ℚ, 0 < factor ∧
    ((rounding.scale place).step : ℚ) = 10 ^ place * factor ∧
    ((rounding.scale place).quarter : ℚ) = 2 ^ rounding.exponent * factor := by
  refine ⟨2 ^ (-rounding.exponent).toNat * 10 ^ (-place).toNat, by positivity, ?_, ?_⟩
  · simp only [scale, Nat.pow_eq]
    push_cast
    rw [pow_toNat (by norm_num) place]
    ring
  · simp only [scale, Nat.pow_eq]
    push_cast
    rw [pow_toNat two_ne_zero rounding.exponent]
    ring

theorem contains_iff {multiple : Nat} :
    rounding.contains (rounding.scale place) multiple = true ↔
      rounding.Owns (multiple * 10 ^ place) := by
  obtain ⟨factor, positive, step, quarter⟩ := rounding.exists_scale place
  have le_iff (quarters : Nat) : quarters * (rounding.scale place).quarter ≤
      multiple * (rounding.scale place).step ↔
        (quarters * 2 ^ rounding.exponent : ℚ) ≤ multiple * 10 ^ place := by
    rw [← Nat.cast_le (α := ℚ)]
    push_cast
    rw [step, quarter, ← mul_assoc, ← mul_assoc, mul_le_mul_iff_left₀ positive]
  have ge_iff (quarters : Nat) : multiple * (rounding.scale place).step ≤
      quarters * (rounding.scale place).quarter ↔
        (multiple * 10 ^ place : ℚ) ≤ quarters * 2 ^ rounding.exponent := by
    rw [← Nat.cast_le (α := ℚ)]
    push_cast
    rw [step, quarter, ← mul_assoc, ← mul_assoc, mul_le_mul_iff_left₀ positive]
  unfold contains Owns
  dsimp only
  split
  · rw [decide_eq_true_eq, le_iff, ge_iff]
  · rw [decide_eq_true_eq, ← not_le, ← not_le, ge_iff, le_iff, not_le, not_le]

theorem Owns.between {low middle high : ℚ} (first : rounding.Owns low) (last : rounding.Owns high)
    (above : low ≤ middle) (below : middle ≤ high) : rounding.Owns middle := by
  unfold Owns at first last ⊢
  split at first
  next shut =>
    rw [if_pos shut] at last ⊢
    exact ⟨first.1.trans above, below.trans last.2⟩
  next ajar =>
    rw [if_neg ajar] at last ⊢
    exact ⟨first.1.trans_le above, below.trans_lt last.2⟩

/-- Numbers reach half a unit up. -/
theorem Owns.le_high {number : ℚ} (owned : rounding.Owns number) (sound : rounding.Sound) :
    number ≤ rounding.number + 2 * 2 ^ rounding.exponent := by
  have high : (rounding.high * 2 ^ rounding.exponent : ℚ) =
      rounding.number + 2 * 2 ^ rounding.exponent := by
    rw [sound.high, Rounding.number]
    push_cast
    ring
  unfold Owns at owned
  rw [high] at owned
  split at owned
  · exact owned.2
  · exact owned.2.le

theorem Sound.owns_of_lt (sound : rounding.Sound) {number : ℚ} (above : rounding.number ≤ number)
    (below : number < rounding.number + 2 * 2 ^ rounding.exponent) : rounding.Owns number := by
  have low : (rounding.low * 2 ^ rounding.exponent : ℚ) < rounding.number :=
    mul_lt_mul_of_pos_right (by exact_mod_cast sound.low) (by positivity)
  have high : number < rounding.high * 2 ^ rounding.exponent := by
    rw [sound.high]
    push_cast
    rwa [add_mul]
  unfold Owns
  split
  · exact ⟨(low.trans_le above).le, high.le⟩
  · exact ⟨low.trans_le above, high⟩

theorem Sound.owns (sound : rounding.Sound) : rounding.Owns rounding.number :=
  sound.owns_of_lt le_rfl (lt_add_of_pos_right _ (by positivity))

theorem Owns.positive {number : ℚ} (sound : rounding.Sound) (owned : rounding.Owns number) :
    0 < number := by
  have low : (0 : ℚ) < rounding.low * 2 ^ rounding.exponent :=
    mul_pos (by exact_mod_cast sound.positive) (by positivity)
  unfold Owns at owned
  split at owned
  · exact low.trans_le owned.1
  · exact low.trans owned.1

/-- The nearest multiple of a power of ten, of those that round to the number. -/
abbrev Nearest (rounding : Rounding) (place : Int) (digits : Nat) : Prop :=
  NearestMultiple rounding.Owns rounding.number place digits

theorem grid_le {multiple digits : Nat} (smaller : multiple ≤ digits) (place : Int) :
    (multiple * 10 ^ place : ℚ) ≤ digits * 10 ^ place :=
  mul_le_mul_of_nonneg_right (by exact_mod_cast smaller) (by positivity)

/-- The neighbours of the number on a grid. -/
structure Between (rounding : Rounding) (place : Int) (below : Nat) : Prop where
  low : (below * 10 ^ place : ℚ) ≤ rounding.number
  high : rounding.number < (below + 1 : ℕ) * 10 ^ place

namespace Between

variable {below multiple : Nat}

theorem owns_below (between : rounding.Between place below) (sound : rounding.Sound)
    (smaller : multiple ≤ below) (owned : rounding.Owns (multiple * 10 ^ place)) :
    rounding.Owns (below * 10 ^ place) :=
  owned.between sound.owns (grid_le smaller place) between.low

theorem owns_above (between : rounding.Between place below) (sound : rounding.Sound)
    (larger : below < multiple) (owned : rounding.Owns (multiple * 10 ^ place)) :
    rounding.Owns ((below + 1 : ℕ) * 10 ^ place) :=
  sound.owns.between owned between.high.le (grid_le larger place)

theorem nearest_below (between : rounding.Between place below) (sound : rounding.Sound)
    (owned : rounding.Owns (below * 10 ^ place))
    (closer : rounding.Owns ((below + 1 : ℕ) * 10 ^ place) →
      rounding.number - below * 10 ^ place < (below + 1 : ℕ) * 10 ^ place - rounding.number) :
    rounding.Nearest place below := by
  have distance : |rounding.number - below * 10 ^ place| = rounding.number - below * 10 ^ place :=
    abs_of_nonneg (sub_nonneg.mpr between.low)
  have farther : ∀ multiple : Nat, below < multiple → rounding.Owns (multiple * 10 ^ place) →
      rounding.number - below * 10 ^ place < |rounding.number - multiple * 10 ^ place| := by
    intro multiple larger known
    refine (closer (between.owns_above sound larger known)).trans_le ?_
    rw [abs_sub_comm]
    exact (sub_le_sub_right (grid_le larger place) _).trans (le_abs_self _)
  refine ⟨owned, fun multiple known => ?_, fun multiple known same => ?_⟩
  · rw [distance]
    rcases Nat.lt_or_ge below multiple with larger | smaller
    · exact (farther multiple larger known).le
    · exact (sub_le_sub_left (grid_le smaller place) _).trans (le_abs_self _)
  · rw [distance] at same
    by_contra larger
    exact (farther multiple (Nat.lt_of_not_le larger) known).ne same

theorem nearest_above (between : rounding.Between place below) (sound : rounding.Sound)
    (owned : rounding.Owns ((below + 1 : ℕ) * 10 ^ place))
    (closer : below ≠ 0 → rounding.Owns (below * 10 ^ place) →
      (below + 1 : ℕ) * 10 ^ place - rounding.number ≤ rounding.number - below * 10 ^ place) :
    rounding.Nearest place (below + 1) := by
  have distance : |rounding.number - (below + 1 : ℕ) * 10 ^ place| =
      (below + 1 : ℕ) * 10 ^ place - rounding.number := by
    rw [abs_sub_comm]
    exact abs_of_nonneg (sub_nonneg.mpr between.high.le)
  refine ⟨owned, fun multiple known => ?_, fun multiple known same => ?_⟩
  · rw [distance]
    rcases Nat.lt_or_ge below multiple with larger | smaller
    · rw [abs_sub_comm]
      exact (sub_le_sub_right (grid_le larger place) _).trans (le_abs_self _)
    · have given : below ≠ 0 := by
        rintro rfl
        obtain rfl := Nat.le_zero.mp smaller
        simpa using known.positive sound
      exact (closer given (between.owns_below sound smaller known)).trans
        ((sub_le_sub_left (grid_le smaller place) _).trans (le_abs_self _))
  · by_contra larger
    have above := grid_le (Nat.le_of_not_le larger) place
    rw [distance, abs_sub_comm, abs_of_nonneg (sub_nonneg.mpr (between.high.le.trans above)),
      sub_left_inj] at same
    have equal := mul_right_cancel₀ (by positivity) same
    exact larger (by exact_mod_cast equal.ge)

end Between

/-- The neighbours that are tested, and which of them is nearer. -/
theorem exists_between (rounding : Rounding) (place : Int) :
    ∃ below : Nat, rounding.Between place below ∧
      below = rounding.value * (rounding.scale place).quarter / (rounding.scale place).step ∧
      (2 * (rounding.value * (rounding.scale place).quarter % (rounding.scale place).step) <
          (rounding.scale place).step ↔
        rounding.number - below * 10 ^ place < (below + 1 : ℕ) * 10 ^ place - rounding.number) := by
  obtain ⟨factor, positive, step, quarter⟩ := rounding.exists_scale place
  have grid : (0 : ℚ) < 10 ^ place := by positivity
  generalize (rounding.scale place).step = step' at *
  generalize (rounding.scale place).quarter = quarter' at *
  have stepPos : 0 < step' := by
    have : (0 : ℚ) < step' := step ▸ mul_pos grid positive
    exact_mod_cast this
  have split := Nat.div_add_mod (rounding.value * quarter') step'
  have small := Nat.mod_lt (rounding.value * quarter') stepPos
  generalize rounding.value * quarter' / step' = below at *
  generalize rounding.value * quarter' % step' = rest at *
  -- The rest of the division is what the number has above its lower neighbour.
  have offset : (rest : ℚ) = (rounding.number - below * 10 ^ place) * factor := by
    have : (step' * below + rest : ℚ) = rounding.value * quarter' := by exact_mod_cast split
    rw [step, quarter] at this
    rw [number]
    linarith
  have upper : ((below + 1 : ℕ) * 10 ^ place - rounding.number : ℚ) =
      10 ^ place - (rounding.number - below * 10 ^ place) := by
    push_cast
    ring
  have restLt : (rest : ℚ) < step' := by exact_mod_cast small
  rw [offset, step, mul_lt_mul_iff_left₀ positive] at restLt
  have restLe : (0 : ℚ) ≤ rest := Nat.cast_nonneg rest
  rw [offset] at restLe
  have low := nonneg_of_mul_nonneg_left restLe positive
  refine ⟨below, ⟨sub_nonneg.mp low, ?_⟩, rfl, ?_⟩
  · linarith
  · rw [upper, ← Nat.cast_lt (α := ℚ)]
    push_cast
    rw [offset, step, ← mul_assoc, mul_lt_mul_iff_left₀ positive]
    constructor <;> intro <;> linarith

/-- What is found on a grid is the nearest multiple. -/
theorem nearest_of_candidate? (sound : rounding.Sound) {digits : Nat}
    (found : rounding.candidate? .upward place = some digits) :
    rounding.Nearest place digits := by
  obtain ⟨below, between, same, nearer⟩ := rounding.exists_between place
  unfold candidate? at found
  dsimp only at found
  rw [← same] at found
  split at found
  next lower upper =>
    have ownsBelow := contains_iff.mp (Bool.and_eq_true_iff.mp lower).1
    have ownsAbove := contains_iff.mp upper
    split at found
    next less =>
      cases found
      exact between.nearest_below sound ownsBelow fun _ => nearer.mp less
    next less =>
      -- The larger one is taken if it is nearer, and if both are equally near.
      obtain rfl : below + 1 = digits := by split at found <;> exact Option.some.inj found
      exact between.nearest_above sound ownsAbove fun _ _ => le_of_not_gt (mt nearer.mpr less)
  next lower upper =>
    cases found
    refine between.nearest_below sound (contains_iff.mp (Bool.and_eq_true_iff.mp lower).1) ?_
    intro owned
    cases upper.symm.trans (contains_iff.mpr owned)
  next lower upper =>
    cases found
    refine between.nearest_above sound (contains_iff.mp upper) fun given owned => ?_
    rw [contains_iff.mpr owned, decide_eq_true (Nat.pos_of_ne_zero given)] at lower
    cases lower
  next => cases found

/-- A grid without a candidate has no multiple that rounds to the number. -/
theorem not_owns_of_candidate? (sound : rounding.Sound) {tie : DecimalTie}
    (missing : rounding.candidate? tie place = none) {multiple : Nat} (given : multiple ≠ 0) :
    ¬rounding.Owns (multiple * 10 ^ place) := by
  intro owned
  obtain ⟨below, between, same, -⟩ := rounding.exists_between place
  unfold candidate? at missing
  dsimp only at missing
  rw [← same] at missing
  split at missing
  next =>
    split at missing
    · cases missing
    · split at missing
      · cases missing
      · cases tie <;> cases missing
  next => cases missing
  next => cases missing
  next lower upper =>
    rcases Nat.lt_or_ge below multiple with larger | smaller
    · cases upper.symm.trans (contains_iff.mpr (between.owns_above sound larger owned))
    · rw [contains_iff.mpr (between.owns_below sound smaller owned),
        decide_eq_true ((Nat.pos_of_ne_zero given).trans_le smaller)] at lower
      cases lower

theorem toDigits_between {value : Nat} (given : value ≠ 0) :
    (10 : ℚ) ^ (((Nat.toDigits 10 value).length : ℤ) - 1) ≤ value ∧
      (value : ℚ) < 10 ^ ((Nat.toDigits 10 value).length : ℤ) := by
  have bound {count : Nat} : 0 < count →
      ((Nat.toDigits 10 value).length ≤ count ↔ value < 10 ^ count) :=
    Nat.length_toDigits_le_iff (by decide)
  obtain ⟨count, length⟩ : ∃ count, (Nat.toDigits 10 value).length = count + 1 :=
    Nat.exists_eq_add_one.mpr Nat.length_toDigits_pos
  rw [length] at bound ⊢
  constructor
  · rw [Nat.cast_succ, add_sub_cancel_right, zpow_natCast]
    rcases Nat.eq_zero_or_pos count with rfl | more
    · exact_mod_cast Nat.one_le_iff_ne_zero.mpr given
    · have := mt (bound more).mpr (by omega)
      exact_mod_cast Nat.le_of_not_lt this
  · rw [zpow_natCast]
    exact_mod_cast (bound (Nat.succ_pos count)).mp le_rfl

theorem leadingPlace_between (sound : rounding.Sound) :
    (10 : ℚ) ^ (rounding.leadingPlace - 1) < rounding.number ∧
      rounding.number < 10 ^ (rounding.leadingPlace + 1) := by
  have given : rounding.value ≠ 0 := Nat.ne_zero_of_lt sound.low
  obtain ⟨numLow, numHigh⟩ := toDigits_between
    (Nat.mul_ne_zero given (Nat.two_pow_pos rounding.exponent.toNat).ne')
  obtain ⟨denLow, denHigh⟩ := toDigits_between (Nat.two_pow_pos (-rounding.exponent).toNat).ne'
  have quotient : rounding.number = ((rounding.value * 2 ^ rounding.exponent.toNat : ℕ) : ℚ) /
      ((2 ^ (-rounding.exponent).toNat : ℕ) : ℚ) := by
    rw [eq_div_iff (by positivity), number]
    push_cast
    rw [pow_toNat two_ne_zero rounding.exponent]
    ring
  rw [quotient, leadingPlace]
  dsimp only
  simp only [Nat.pow_eq]
  generalize Nat.toDigits 10 (rounding.value * 2 ^ rounding.exponent.toNat) = upper at *
  generalize Nat.toDigits 10 (2 ^ (-rounding.exponent).toNat) = lower at *
  constructor
  · have low : (10 : ℚ) ^ ((upper.length : ℤ) - lower.length - 1) =
        10 ^ ((upper.length : ℤ) - 1) / 10 ^ (lower.length : ℤ) := by
      rw [← zpow_sub₀ (by norm_num)]
      congr 1
      ring
    rw [low]
    exact div_lt_div₀' numLow denHigh (by positivity) (by positivity)
  · have high : (10 : ℚ) ^ ((upper.length : ℤ) - lower.length + 1) =
        10 ^ (upper.length : ℤ) / 10 ^ ((lower.length : ℤ) - 1) := by
      rw [← zpow_sub₀ (by norm_num)]
      congr 1
      ring
    rw [high]
    exact div_lt_div₀ numHigh denLow (by positivity) (by positivity)

/-- Twenty grids suffice. -/
theorem exists_candidate? (sound : rounding.Sound) (tie : DecimalTie) :
    ∃ step < 20, rounding.candidate? tie (rounding.leadingPlace - (step : ℕ)) ≠ none := by
  refine ⟨19, by decide, fun missing => ?_⟩
  obtain ⟨below, between, -⟩ := rounding.exists_between (rounding.leadingPlace - (19 : ℕ))
  refine not_owns_of_candidate? sound missing (Nat.succ_ne_zero below) ?_
  have number : rounding.number < 10 ^ 18 * 2 ^ rounding.exponent :=
    mul_lt_mul_of_pos_right (by exact_mod_cast sound.short) (by positivity)
  -- The last grid is finer than half a unit, so it has a multiple in the upper half.
  have fine : (10 : ℚ) ^ (rounding.leadingPlace - (19 : ℕ)) < 2 * 2 ^ rounding.exponent := by
    have split : (10 : ℚ) ^ (rounding.leadingPlace - 1) =
        10 ^ 18 * 10 ^ (rounding.leadingPlace - (19 : ℕ)) := by
      rw [← zpow_natCast, ← zpow_add₀ (by norm_num)]
      congr 1
      push_cast
      ring
    have lead := (leadingPlace_between sound).1.trans number
    rw [split] at lead
    have unit := lt_of_mul_lt_mul_left lead (by positivity)
    have : (0 : ℚ) < 2 ^ rounding.exponent := by positivity
    linarith
  refine sound.owns_of_lt between.high.le ?_
  have low := between.low
  generalize (10 : ℚ) ^ (rounding.leadingPlace - (19 : ℕ)) = grid at *
  push_cast
  linarith

theorem search_spec {tie : DecimalTie} {grids : Nat} {place : Int}
    (hit : ∃ step < grids, rounding.candidate? tie (place - (step : ℕ)) ≠ none) :
    ∃ digits last, rounding.search tie grids place = ⟨digits, last⟩ ∧
      rounding.candidate? tie last = some digits ∧
      (last = place ∨ rounding.candidate? tie (last + 1) = none) := by
  induction grids generalizing place with
  | zero =>
      obtain ⟨step, small, -⟩ := hit
      cases small
  | succ grids ih =>
      rw [search]
      cases here : rounding.candidate? tie place with
      | some digits => exact ⟨digits, place, rfl, here, .inl rfl⟩
      | none =>
          obtain ⟨step, small, hits⟩ := hit
          cases step with
          | zero => exact absurd here (by simpa using hits)
          | succ step =>
              have later : rounding.candidate? tie (place - 1 - (step : ℕ)) ≠ none := by
                convert hits using 2
                push_cast
                ring
              obtain ⟨digits, last, found, candidate, top⟩ :=
                ih ⟨step, Nat.lt_of_succ_lt_succ small, later⟩
              refine ⟨digits, last, found, candidate, .inr ?_⟩
              rcases top with rfl | coarser
              · rwa [sub_add_cancel]
              · exact coarser

theorem normalize_of_mod {steps : Nat} {decimal : DecimalDigits}
    (last : decimal.digits % 10 ≠ 0) : normalize steps decimal = decimal := by
  cases steps with
  | zero => rfl
  | succ steps => simp [normalize, last]

theorem ten_zpow (place : Int) : (10 : ℚ) ^ (place + 1) = (10 : ℕ) * 10 ^ place := by
  simpa using mul_ten_zpow 1 place

theorem le_ten_of_nearest (sound : rounding.Sound) {digits : Nat}
    (nearest : rounding.Nearest place digits) (leading : rounding.number < 10 ^ (place + 1)) :
    digits ≤ 10 := by
  by_contra more
  have grid : (0 : ℚ) < 10 ^ place := by positivity
  rw [ten_zpow] at leading
  have beyond : ((10 : ℕ) * 10 ^ place : ℚ) < digits * 10 ^ place :=
    mul_lt_mul_of_pos_right (by exact_mod_cast Nat.lt_of_not_le more) grid
  have near := nearest.near 10 (sound.owns.between nearest.accepts leading.le beyond.le)
  rw [abs_sub_comm, abs_of_nonneg (by linarith), abs_sub_comm, abs_of_nonneg (by linarith)] at near
  linarith

theorem pow_le_multiple {multiple : Nat} (given : multiple ≠ 0) (place : Int) :
    (10 : ℚ) ^ place ≤ multiple * 10 ^ place := by
  have first := grid_le (Nat.one_le_iff_ne_zero.mpr given) place
  rwa [Nat.cast_one, one_mul] at first

/-- Where a single digit is nearest, the power of ten above it does not round to the number. Only
the least numbers of a format have so wide surroundings that it might. -/
theorem not_owns_of_nearest (sound : rounding.Sound) {digits : Nat}
    (nearest : rounding.Nearest place digits) (leading : rounding.number < 10 ^ (place + 1))
    (few : digits < 10) (long : 38 ≤ rounding.value) {multiple : Nat} (given : multiple ≠ 0) :
    ¬rounding.Owns (multiple * 10 ^ (place + 1)) := by
  intro owned
  have grid : (0 : ℚ) < 10 ^ place := by positivity
  have ownsTen := sound.owns.between owned leading.le (pow_le_multiple given _)
  have high := ownsTen.le_high sound
  rw [ten_zpow] at ownsTen high leading
  have near := nearest.near 10 ownsTen
  have apart : |rounding.number - digits * 10 ^ place| ≠
      |rounding.number - (10 : ℕ) * 10 ^ place| :=
    fun same => Nat.not_le_of_lt few (nearest.upward 10 ownsTen same)
  have nearer := lt_of_le_of_ne near apart
  rw [abs_sub_comm _ ((10 : ℕ) * 10 ^ place : ℚ), abs_of_nonneg (sub_nonneg.mpr leading.le)]
    at nearer
  have offset := (le_abs_self _).trans_lt nearer
  have nine : (digits * 10 ^ place : ℚ) ≤ (9 : ℕ) * 10 ^ place :=
    grid_le (Nat.le_of_lt_succ few) place
  have size : (38 * 2 ^ rounding.exponent : ℚ) ≤ rounding.number :=
    mul_le_mul_of_nonneg_right (by exact_mod_cast long) (by positivity)
  push_cast at *
  linarith

/-- What rounds to the number is not ten times as large. -/
theorem not_owns_of_leading (sound : rounding.Sound) (leading : rounding.number < 10 ^ place)
    {multiple : Nat} (given : multiple ≠ 0) : ¬rounding.Owns (multiple * 10 ^ (place + 1)) := by
  intro owned
  have high := (pow_le_multiple given _).trans (owned.le_high sound)
  have size : (2 * 2 ^ rounding.exponent : ℚ) ≤ rounding.number := by
    have := sound.positive
    have := sound.low
    exact mul_le_mul_of_nonneg_right (by exact_mod_cast (by omega)) (by positivity)
  rw [ten_zpow] at high
  have grid : (0 : ℚ) < 10 ^ place := by positivity
  push_cast at high
  linarith

/-- The search for the shortest decimal finds it. -/
theorem shortest_search (sound : rounding.Sound)
    (clear : 38 ≤ rounding.value ∨ rounding.candidate? .upward
      ((normalize 20 (rounding.search .upward 20 rounding.leadingPlace)).exponent + 1) = none) :
    ShortestDecimal rounding.Owns rounding.number
      (normalize 20 (rounding.search .upward 20 rounding.leadingPlace)) := by
  obtain ⟨digits, last, found, candidate, top⟩ := search_spec (exists_candidate? sound .upward)
  have nearest := nearest_of_candidate? sound candidate
  have given : digits ≠ 0 := by
    rintro rfl
    simpa using nearest.accepts.positive sound
  rw [found] at clear ⊢
  rcases top with rfl | coarser
  -- No search tells about the grid above the first one, where the digits are one to ten.
  · have leading := (leadingPlace_between sound).2
    rcases Nat.lt_or_eq_of_le (le_ten_of_nearest sound nearest leading) with few | rfl
    · rw [normalize_of_mod (by rw [Nat.mod_eq_of_lt few]; exact given)] at clear ⊢
      refine ⟨nearest, fun multiple some => ?_⟩
      rcases clear with long | missing
      · exact not_owns_of_nearest sound nearest leading few long some
      · exact not_owns_of_candidate? sound missing some
    · have first : normalize 20 ⟨10, rounding.leadingPlace⟩ = ⟨1, rounding.leadingPlace + 1⟩ := by
        simp [normalize]
      rw [first]
      exact ⟨nearest.coarser, fun multiple some => not_owns_of_leading sound leading some⟩
  · have kept : digits % 10 ≠ 0 := by
      intro zero
      obtain ⟨multiple, rfl⟩ := Nat.dvd_of_mod_eq_zero zero
      have := nearest.accepts
      rw [Nat.mul_comm, ← mul_ten_zpow] at this
      exact not_owns_of_candidate? sound coarser (by omega) this
    rw [normalize_of_mod kept]
    exact ⟨nearest, fun multiple some => not_owns_of_candidate? sound coarser some⟩

end Rounding

end DecimalDigits

end GpuPlacement
