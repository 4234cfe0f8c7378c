import GpuPlacement.Number.Layout
import GpuPlacement.Proofs.ShortestDecimals
/-!
Plain texts of double precision words. A word that denotes a number is written with the fewest
decimal places from which the number reads back, without an exponent. What reads back is told by the
distances to the neighbouring words, not by the search for digits.
-/
namespace GpuPlacement

namespace BinaryFormat

/-- Half of the way down to the next number of a format. Below a power of two numbers stand twice as
close, unless the exponent is the least one. -/
def halfBelow (format : BinaryFormat) (significand : Nat) (exponent : Int) : ℚ :=
  if significand = 2 ^ format.fractionBits ∧ format.leastExponent < exponent then
    2 ^ (exponent - 2)
  else 2 ^ (exponent - 1)

/-- A number reads back as `significand * 2 ^ exponent` when it is off it by less than half of the
way to the next numbers of the format. Half of the way it is rounded to an even significand. -/
def ReadsBack (format : BinaryFormat) (significand : Nat) (exponent : Int) (number : ℚ) : Prop :=
  let low : ℚ := significand * 2 ^ exponent - format.halfBelow significand exponent
  let high : ℚ := significand * 2 ^ exponent + 2 ^ (exponent - 1)
  if significand % 2 = 0 then low ≤ number ∧ number ≤ high else low < number ∧ number < high

end BinaryFormat

namespace DecimalDigits

/-- Digits with a point in front of the last places, and zeros in front where there are too few. -/
def pointed (digits : List Char) (places : Nat) : List Char :=
  let padded := digits.leftpad (places + 1) '0'
  padded.take (padded.length - places) ++ '.' :: padded.drop (padded.length - places)

/-- All digits of a decimal, with zeros and a mark of whole numbers behind them, or a point. -/
def plainText (decimal : DecimalDigits) (whole : String) : List Char :=
  let digits := Nat.toDigits 10 decimal.digits
  if 0 ≤ decimal.exponent then
    digits ++ List.replicate decimal.exponent.toNat '0' ++ whole.toList
  else pointed digits (-decimal.exponent).toNat

end DecimalDigits

namespace FloatWord

variable {format : BinaryFormat}

def signText (negative : Bool) : String :=
  if negative then "-" else ""

/-- How a word is displayed where `noNumber` stands for what is no number and `whole` behind whole
numbers. Zeros and infinities have a sign, too. -/
inductive DisplayedAs (word : FloatWord format) (noNumber whole : String) : String → Prop
  | notANumber (seen : word.datum = .notANumber) : DisplayedAs word noNumber whole noNumber
  | infinite {negative : Bool} (seen : word.datum = .infinite negative) :
    DisplayedAs word noNumber whole (signText negative ++ "inf")
  | zero {negative : Bool} {exponent : Int} (seen : word.datum = .finite negative 0 exponent) :
    DisplayedAs word noNumber whole (signText negative ++ "0" ++ whole)
  | number {negative : Bool} {significand : Nat} {exponent : Int} {decimal : DecimalDigits}
    (seen : word.datum = .finite negative significand exponent) (given : significand ≠ 0)
    (shortest : ShortestDecimal (format.ReadsBack significand exponent)
      (significand * 2 ^ exponent) decimal) :
    DisplayedAs word noNumber whole
      (signText negative ++ String.ofList (decimal.plainText whole))

end FloatWord

namespace FloatLayout

/-- What stands behind whole numbers. -/
def wholeText (layout : FloatLayout) : String :=
  if layout.wholePoint then ".0" else ""

theorem positionalText_pointed (layout : FloatLayout) {digits : List Char} {places : Nat}
    (fraction : 0 < places) :
    layout.positionalText digits (digits.length + -(places : ℤ)) =
      DecimalDigits.pointed digits places := by
  unfold positionalText DecimalDigits.pointed
  dsimp only
  rcases Nat.lt_or_ge places digits.length with long | short
  · have point : ((digits.length : ℤ) + -(places : ℤ)).toNat = digits.length - places := by omega
    have same : digits.leftpad (places + 1) '0' = digits := by
      rw [List.leftpad, Nat.sub_eq_zero_of_le long, List.replicate_zero, List.nil_append]
    rw [if_neg (by omega), if_neg (by omega), point, same]
  · obtain ⟨zeros, rfl⟩ := Nat.exists_eq_add_of_le short
    have point : (-((digits.length : ℤ) + -((digits.length + zeros : ℕ) : ℤ))).toNat = zeros := by
      omega
    have padded : digits.leftpad (digits.length + zeros + 1) '0' =
        '0' :: (List.replicate zeros '0' ++ digits) := by
      rw [List.leftpad, Nat.add_assoc, Nat.add_sub_cancel_left, List.replicate_succ,
        List.cons_append]
    have before : ('0' :: (List.replicate zeros '0' ++ digits)).length -
        (digits.length + zeros) = 1 := by
      rw [List.length_cons, List.length_append, List.length_replicate]
      omega
    rw [if_pos (by omega), point, padded, before]
    rfl

theorem positionalText_whole (layout : FloatLayout) {digits : List Char} (zeros : Nat)
    (given : 0 < digits.length) :
    layout.positionalText digits (digits.length + (zeros : ℤ)) =
      digits ++ List.replicate zeros '0' ++ layout.wholeText.toList := by
  unfold positionalText wholeText
  dsimp only
  rw [if_neg (by omega), if_pos (by omega), add_sub_cancel_left, Int.toNat_natCast]
  cases layout.wholePoint <;> rfl

/-- Texts without an exponent. -/
theorem magnitudeText_plain {layout : FloatLayout} (plain : layout.positional = none)
    (decimal : DecimalDigits) :
    layout.magnitudeText decimal = decimal.plainText layout.wholeText := by
  have given : 0 < (Nat.toDigits 10 decimal.digits).length := Nat.length_toDigits_pos
  rw [magnitudeText, DecimalDigits.plainText, plain]
  dsimp only
  rcases lt_or_ge decimal.exponent 0 with fraction | natural
  · obtain ⟨places, same⟩ := Int.exists_eq_neg_ofNat fraction.le
    rw [if_neg (not_le_of_gt fraction), same, neg_neg, Int.toNat_natCast]
    exact positionalText_pointed layout (by omega)
  · obtain ⟨zeros, same⟩ := Int.eq_ofNat_of_zero_le natural
    rw [if_pos natural, same, Int.toNat_natCast]
    exact positionalText_whole layout zeros given

theorem ofList_signed (negative : Bool) (magnitude : List Char) :
    String.ofList (if negative then '-' :: magnitude else magnitude) =
      FloatWord.signText negative ++ String.ofList magnitude := by
  cases negative <;> simp [FloatWord.signText]

theorem ofList_zero (layout : FloatLayout) :
    String.ofList (if layout.wholePoint then ['0', '.', '0'] else ['0']) =
      "0" ++ layout.wholeText := by
  unfold wholeText
  cases layout.wholePoint <;> rfl

end FloatLayout

namespace DecimalDigits

namespace Rounding

variable {format : BinaryFormat} {significand : Nat} {exponent : Int}

theorem sound_around (given : significand ≠ 0) (short : significand < 2 ^ 53) :
    (around format significand exponent).Sound := by
  constructor
  all_goals
    simp only [around]
    try split
    all_goals omega

/-- Quarters of a unit in units. -/
theorem two_zpow_quarters (exponent : Int) :
    (2 : ℚ) ^ exponent = 4 * 2 ^ (exponent - 2) ∧
      (2 : ℚ) ^ (exponent - 1) = 2 * 2 ^ (exponent - 2) := by
  constructor
  · rw [zpow_sub₀ two_ne_zero]
    ring
  · rw [zpow_sub₀ two_ne_zero, zpow_sub₀ two_ne_zero]
    ring

theorem number_around (format : BinaryFormat) :
    (around format significand exponent).number = significand * 2 ^ exponent := by
  rw [number, (two_zpow_quarters exponent).1]
  simp only [around]
  push_cast
  ring

theorem owns_around (given : significand ≠ 0) :
    (around format significand exponent).Owns = format.ReadsBack significand exponent := by
  obtain ⟨unit, half⟩ := two_zpow_quarters exponent
  have low : ((around format significand exponent).low *
      2 ^ (around format significand exponent).exponent : ℚ) =
        significand * 2 ^ exponent - format.halfBelow significand exponent := by
    unfold BinaryFormat.halfBelow
    simp only [around, Bool.and_eq_true, decide_eq_true_eq, Nat.pow_eq]
    split
    · rw [Nat.cast_sub (by omega), unit]
      push_cast
      ring
    · rw [Nat.cast_sub (by omega), unit, half]
      push_cast
      ring
  have high : ((around format significand exponent).high *
      2 ^ (around format significand exponent).exponent : ℚ) =
        significand * 2 ^ exponent + 2 ^ (exponent - 1) := by
    rw [unit, half]
    simp only [around]
    push_cast
    ring
  funext number
  unfold Owns BinaryFormat.ReadsBack
  rw [low, high]
  simp only [around, decide_eq_true_eq]

end Rounding

/-- The least words have so few digits that the search starts on their first one. -/
theorem candidate?_least : ∀ significand < 10, significand ≠ 0 →
    let rounding := Rounding.around .double significand BinaryFormat.double.leastExponent
    rounding.candidate? .upward
      ((normalize 20 (rounding.search .upward 20 rounding.leadingPlace)).exponent + 1) = none := by
  decide +kernel

end DecimalDigits

namespace FloatWord

open DecimalDigits

variable {word : Binary64} {negative : Bool} {significand : Nat} {exponent : Int}

theorem shortest_double (finite : word.datum = .finite negative significand exponent)
    (given : significand ≠ 0) :
    ShortestDecimal (BinaryFormat.double.ReadsBack significand exponent)
      (significand * 2 ^ exponent) (.shortest .double .upward significand exponent) := by
  obtain ⟨-, short, steps, rfl, full, -⟩ := fields_of_datum finite
  rw [← Rounding.owns_around given, ← Rounding.number_around .double]
  refine Rounding.shortest_search (Rounding.sound_around given short) ?_
  rcases Nat.lt_or_ge significand 10 with few | many
  · have least : steps = 0 := full.resolve_right fun large =>
      absurd (large.trans_lt few) (by decide)
    rw [least, Nat.cast_zero, add_zero]
    exact .inr (candidate?_least significand few given)
  · exact .inl (show 38 ≤ 4 * significand by omega)

theorem positive_of_readsBack (finite : word.datum = .finite negative significand exponent)
    (given : significand ≠ 0) {number : ℚ}
    (back : BinaryFormat.double.ReadsBack significand exponent number) : 0 < number := by
  obtain ⟨-, short, -⟩ := fields_of_datum finite
  rw [← Rounding.owns_around given] at back
  exact back.positive (Rounding.sound_around given short)

/-- A layout without exponents displays a word, and nothing else is a display of it. -/
theorem displayedAs_iff (layout : FloatLayout) (tie : layout.tie = .upward)
    (plain : layout.positional = none) (infinity : layout.infinity = "inf") {text : String} :
    word.DisplayedAs layout.notANumber layout.wholeText text ↔ word.text layout = text := by
  unfold FloatWord.text FloatLayout.datumText
  constructor
  · rintro (seen | seen | seen | ⟨seen, given, shortest⟩)
    case notANumber => rw [seen]
    case infinite =>
      rw [seen, infinity]
      rfl
    case zero =>
      rw [seen]
      dsimp only
      rw [if_pos rfl, FloatLayout.ofList_signed, FloatLayout.ofList_zero, String.append_assoc]
    case number =>
      have same := (shortest_double seen given).unique (fun _ => positive_of_readsBack seen given)
        shortest
      rw [seen, tie, ← same]
      dsimp only
      rw [if_neg given, FloatLayout.ofList_signed, FloatLayout.magnitudeText_plain plain]
  · rintro rfl
    cases seen : word.datum with
    | notANumber => exact .notANumber seen
    | infinite negative =>
        rw [infinity]
        exact .infinite seen
    | finite negative significand exponent =>
        dsimp only
        rw [FloatLayout.ofList_signed, tie]
        split
        next zero =>
          rw [FloatLayout.ofList_zero, ← String.append_assoc]
          exact .zero (zero ▸ seen)
        next given =>
          rw [FloatLayout.magnitudeText_plain plain]
          exact .number seen given (shortest_double seen given)

example : (ofQuotient true 1 3 : Binary64).text .report = "-0.3333333333333333" := by
  decide +kernel

end FloatWord

end GpuPlacement
