import GpuPlacement.Proofs.CastIntegers
import GpuPlacement.Proofs.Numerals
/-!
Casts of texts to integral types. They take exactly the numerals within the bounds of the type, so
that the text of an integer is cast back to it. What is no numeral of 64 bits counts as malformed,
also where it is a numeral and only too large.
-/
namespace GpuPlacement.Scalar

variable {target : DataType} {least greatest number : Int} {text : String} {mode : CastMode}

/-- What becomes of a text that a cast does not take. -/
def refusal (target : DataType) (error : CastError) : CastMode → Except CastError Scalar
  | .ansi => .error error
  | .legacy => .ok (.null target)

/-- What a cast of a text to an integral type comes to, by the number that the text denotes. -/
inductive Takes (text : String) (target : DataType) (least greatest : Int) (mode : CastMode) :
    Except CastError Scalar → Prop
  | inside {number : Int} {result : Scalar} : Denotes text.toList number → least ≤ number →
      number ≤ greatest → result.type = target → result.integer? = some number →
      Takes text target least greatest mode (.ok result)
  | outside {number : Int} : Denotes text.toList number → ¬(least ≤ number ∧ number ≤ greatest) →
      -2 ^ 63 ≤ number → number < 2 ^ 63 →
      Takes text target least greatest mode (refusal target (.overflow text target) mode)
  | unread : (∀ number, Denotes text.toList number → ¬(-2 ^ 63 ≤ number ∧ number < 2 ^ 63)) →
      Takes text target least greatest mode (refusal target (.malformed text target) mode)

theorem long_bounds : Int64.minValue.toInt = -2 ^ 63 ∧ Int64.maxValue.toInt = 2 ^ 63 - 1 :=
  ⟨rfl, rfl⟩

theorem castTextToIntegral_takes (bounds : target.integralBounds? = some (least, greatest))
    (text : String) (mode : CastMode) :
    Takes text target least greatest mode (castTextToIntegral text target mode) := by
  obtain ⟨width, wide, low, high⟩ := DataType.exists_width_of_bounds bounds
  obtain ⟨longLeast, longGreatest⟩ := long_bounds
  unfold castTextToIntegral
  split
  next unread =>
    have beyond : ∀ number, Denotes text.toList number → ¬(-2 ^ 63 ≤ number ∧ number < 2 ^ 63) := by
      intro number denotes range
      have read := readIntegerIn?_trimChars.mpr ⟨denotes,
        (by omega : Int64.minValue.toInt ≤ number), (by omega : number ≤ Int64.maxValue.toInt)⟩
      rw [unread] at read
      cases read
    cases mode <;> exact .unread beyond
  next number read =>
    obtain ⟨denotes, low64, high64⟩ := readIntegerIn?_trimChars.mp read
    rw [bounds]
    dsimp only
    split
    next exceeds =>
      cases mode <;> exact .outside denotes (by omega) (by omega) (by omega)
    next fits =>
      -- Numbers within the bounds are not changed by the wrap that follows.
      have above : -2 ^ (width - 1) ≤ number := by omega
      have below : number < 2 ^ (width - 1) := by omega
      obtain ⟨result, done, type, integral⟩ :=
        exists_castToIntegral_inside wide above below .legacy
      rw [done]
      exact .inside denotes (by omega) (by omega) type integral

theorem cast_takes (bounds : target.integralBounds? = some (least, greatest)) (text : String)
    (mode : CastMode) :
    Takes text target least greatest mode ((string text).cast target mode) := by
  have same : (string text).cast target mode = castTextToIntegral text target mode := by
    cases target <;> cases bounds <;> rfl
  rw [same]
  exact castTextToIntegral_takes bounds text mode

theorem isNull_of_integer {value : Scalar} (integral : value.integer? = some number) :
    value.isNull = false := by
  cases value <;> first | rfl | cases integral

theorem refusal_no_value {error : CastError} {result : Scalar} :
    ¬(refusal target error mode = .ok result ∧ result.isNull = false) := by
  rintro ⟨given, valued⟩
  cases mode <;> cases given
  cases valued

namespace Takes

variable {outcome : Except CastError Scalar}

theorem ok_iff (bounds : target.integralBounds? = some (least, greatest))
    (takes : Takes text target least greatest mode outcome) (result : Scalar) :
    (outcome = .ok result ∧ result.isNull = false) ↔ result.type = target ∧
      ∃ number, Denotes text.toList number ∧ least ≤ number ∧ number ≤ greatest ∧
        result.integer? = some number := by
  cases takes with
  | inside denotes above below type integral =>
      constructor
      · rintro ⟨⟨⟩, -⟩
        exact ⟨type, _, denotes, above, below, integral⟩
      · rintro ⟨own, other, also, -, -, same⟩
        obtain rfl := denotes.unique also
        obtain rfl := eq_of_integer (type.trans own.symm) integral same
        exact ⟨rfl, isNull_of_integer integral⟩
  | outside denotes beyond =>
      refine iff_of_false refusal_no_value ?_
      rintro ⟨-, other, also, above, below, -⟩
      obtain rfl := denotes.unique also
      exact beyond ⟨above, below⟩
  | unread unread =>
      refine iff_of_false refusal_no_value ?_
      rintro ⟨-, number, denotes, above, below, -⟩
      have within := bounds_within_long bounds
      have := long_bounds
      exact unread number denotes (by omega)

/-- Every text that denotes no number within the bounds is refused, for one reason or the other. -/
theorem refused (takes : Takes text target least greatest mode outcome)
    (none : ¬∃ number, Denotes text.toList number ∧ least ≤ number ∧ number ≤ greatest) :
    ∃ error, outcome = refusal target error mode := by
  cases takes with
  | inside denotes above below => exact absurd ⟨_, denotes, above, below⟩ none
  | outside | unread => exact ⟨_, rfl⟩

/-- Which of the two reasons ANSI mode reports. -/
theorem error_iff (bounds : target.integralBounds? = some (least, greatest))
    (takes : Takes text target least greatest .ansi outcome) (error : CastError) :
    outcome = .error error ↔
      (error = .overflow text target ∧ ∃ number, Denotes text.toList number ∧
        -2 ^ 63 ≤ number ∧ number < 2 ^ 63 ∧ ¬(least ≤ number ∧ number ≤ greatest)) ∨
      (error = .malformed text target ∧
        ∀ number, Denotes text.toList number → ¬(-2 ^ 63 ≤ number ∧ number < 2 ^ 63)) := by
  cases takes with
  | inside denotes above below =>
      have within := bounds_within_long bounds
      have := long_bounds
      refine iff_of_false nofun ?_
      rintro (⟨-, other, also, -, -, beyond⟩ | ⟨-, unread⟩)
      · obtain rfl := denotes.unique also
        exact beyond ⟨above, below⟩
      · exact unread _ denotes (by omega)
  | outside denotes beyond low high =>
      constructor
      · rintro ⟨⟩
        exact .inl ⟨rfl, _, denotes, low, high, beyond⟩
      · rintro (⟨rfl, -⟩ | ⟨-, unread⟩)
        · rfl
        · exact absurd ⟨low, high⟩ (unread _ denotes)
  | unread unread =>
      constructor
      · rintro ⟨⟩
        exact .inr ⟨rfl, unread⟩
      · rintro (⟨-, number, denotes, low, high, -⟩ | ⟨rfl, -⟩)
        · exact absurd ⟨low, high⟩ (unread number denotes)
        · rfl

end Takes

theorem cast_integer_to_text {value : Scalar} (integral : value.integer? = some number)
    (mode : CastMode) : value.cast .string mode = .ok (.string (toString number)) := by
  cases value <;> cases integral <;> rfl

theorem cast_null_to_text (bounds : target.integralBounds? = some (least, greatest))
    {value : Scalar} (type : value.type = target) (null : value.isNull = true) (mode : CastMode) :
    ∃ shown, value.cast .string mode = .ok shown ∧
      ∀ back, shown.cast target back = .ok value := by
  subst type
  cases value with
  | null type =>
      refine ⟨.null .string, ?_, fun back => ?_⟩
      · cases type <;> cases bounds <;> rfl
      · cases type <;> cases bounds <;> rfl
  | _ => cases null

theorem exists_integer (bounds : target.integralBounds? = some (least, greatest)) {value : Scalar}
    (type : value.type = target) (valued : value.isNull = false) :
    ∃ number, value.integer? = some number ∧ least ≤ number ∧ number ≤ greatest := by
  obtain ⟨width, wide, low, high⟩ := DataType.exists_width_of_bounds bounds
  obtain ⟨number, integral⟩ : ∃ number, value.integer? = some number := by
    subst type
    cases value <;> first | exact ⟨_, rfl⟩ | cases bounds | cases valued
  obtain ⟨above, below⟩ := integer_range integral (type.symm ▸ wide)
  exact ⟨number, integral, by omega, by omega⟩

/-- A text is cast to an integral type just when it is a numeral, with blanks around it or not, of a
number within the bounds of the type; any other text becomes a null in legacy mode and an error in
ANSI mode. So a value of an integral type survives the way through its text. -/
theorem cast_text_integral (bounds : target.integralBounds? = some (least, greatest)) :
    (∀ text mode result,
      ((string text).cast target mode = .ok result ∧ result.isNull = false) ↔
        result.type = target ∧ ∃ number, Denotes text.toList number ∧ least ≤ number ∧
          number ≤ greatest ∧ result.integer? = some number) ∧
    (∀ text,
      (¬∃ number, Denotes text.toList number ∧ least ≤ number ∧ number ≤ greatest) →
        (string text).cast target .legacy = .ok (.null target) ∧
          ∃ error, (string text).cast target .ansi = .error error) ∧
    ∀ value : Scalar, value.type = target → ∀ mode, ∃ shown,
      value.cast .string mode = .ok shown ∧ ∀ back, shown.cast target back = .ok value := by
  refine ⟨fun text mode result => (cast_takes bounds text mode).ok_iff bounds result, ?_, ?_⟩
  · intro text none
    obtain ⟨_, legacy⟩ := (cast_takes bounds text .legacy).refused none
    obtain ⟨error, ansi⟩ := (cast_takes bounds text .ansi).refused none
    exact ⟨legacy, error, ansi⟩
  · intro value type mode
    cases valued : value.isNull with
    | true => exact cast_null_to_text bounds type valued mode
    | false =>
        obtain ⟨number, integral, above, below⟩ := exists_integer bounds type valued
        refine ⟨_, cast_integer_to_text integral mode, fun back => ?_⟩
        have denotes := (numeral_toString number).denotes
        exact (((cast_takes bounds _ back).ok_iff bounds value).mpr
          ⟨type, number, denotes, above, below, integral⟩).1

/-- The text of a number above the greatest short is refused, one with a sign, leading zeros and
blanks is not, and the least short comes back from its text. -/
theorem cast_text_integral_short :
    DataType.short.integralBounds? = some (-2 ^ 15, 2 ^ 15 - 1) ∧
      (∀ mode, (string " +0042\t").cast .short mode = .ok (.short 42)) ∧
      (string "32768").cast .short .legacy = .ok (.null .short) ∧
      ∃ shown, (short (-32768)).cast .string .ansi = .ok shown ∧
        ∀ back, shown.cast .short back = .ok (short (-32768)) := by
  have bounds : DataType.short.integralBounds? = some (-2 ^ 15, 2 ^ 15 - 1) := rfl
  obtain ⟨taken, refused, back⟩ := cast_text_integral bounds
  have written : Digits ['0', '0', '4', '2'] 42 := ⟨List.cons_ne_nil _ _, by simp, rfl⟩
  have denotes : Denotes " +0042\t".toList 42 :=
    ⟨[' '], ['+', '0', '0', '4', '2'], ['\t'], rfl, List.forall_mem_singleton.mpr rfl,
      List.forall_mem_singleton.mpr rfl, .plus written⟩
  refine ⟨bounds, fun mode => ?_, (refused "32768" ?_).1, back _ rfl .ansi⟩
  · exact ((taken _ mode _).mpr ⟨rfl, 42, denotes, by decide, by decide, rfl⟩).1
  · rintro ⟨number, also, -, below⟩
    obtain rfl := (numeral_toString 32768).denotes.unique also
    exact absurd below (by decide)

/-- An ANSI cast of a text to an integral type overflows where the text denotes a number of 64 bits
beyond the bounds of the type. Where it denotes no number of 64 bits, be it that it is no numeral or
a numeral that is too large, the text counts as malformed. -/
theorem cast_text_ansi_fails (bounds : target.integralBounds? = some (least, greatest))
    (text : String) :
    ((∃ shown type, (string text).cast target .ansi = .error (.overflow shown type)) ↔
      ∃ number, Denotes text.toList number ∧ -2 ^ 63 ≤ number ∧ number < 2 ^ 63 ∧
        ¬(least ≤ number ∧ number ≤ greatest)) ∧
    ((∃ shown type, (string text).cast target .ansi = .error (.malformed shown type)) ↔
      ∀ number, Denotes text.toList number → ¬(-2 ^ 63 ≤ number ∧ number < 2 ^ 63)) ∧
    ∀ error, (string text).cast target .ansi = .error error →
      error = .overflow text target ∨ error = .malformed text target := by
  have fails := (cast_takes bounds text .ansi).error_iff bounds
  refine ⟨⟨?_, ?_⟩, ⟨?_, ?_⟩, ?_⟩
  · rintro ⟨shown, type, failed⟩
    obtain ⟨-, beyond⟩ | ⟨other, -⟩ := (fails _).mp failed
    · exact beyond
    · cases other
  · intro beyond
    exact ⟨text, target, (fails _).mpr (.inl ⟨rfl, beyond⟩)⟩
  · rintro ⟨shown, type, failed⟩
    obtain ⟨other, -⟩ | ⟨-, unread⟩ := (fails _).mp failed
    · cases other
    · exact unread
  · intro unread
    exact ⟨text, target, (fails _).mpr (.inr ⟨rfl, unread⟩)⟩
  · intro error failed
    obtain ⟨overflow, -⟩ | ⟨malformed, -⟩ := (fails error).mp failed
    · exact .inl overflow
    · exact .inr malformed

theorem denotes_aboveLong : Denotes "9223372036854775808".toList (2 ^ 63) := by
  have printed : toString (2 ^ 63 : Int) = "9223372036854775808" := rfl
  exact printed ▸ (numeral_toString (2 ^ 63)).denotes

/-- The number above the greatest byte overflows a byte, the number above the greatest long does
not. -/
theorem cast_text_ansi_fails_aboveLong :
    DataType.byte.integralBounds? = some (-2 ^ 7, 2 ^ 7 - 1) ∧
      (∃ shown type, (string "128").cast .byte .ansi = .error (.overflow shown type)) ∧
      ∃ shown type,
        (string "9223372036854775808").cast .byte .ansi = .error (.malformed shown type) := by
  have bounds : DataType.byte.integralBounds? = some (-2 ^ 7, 2 ^ 7 - 1) := rfl
  refine ⟨bounds, (cast_text_ansi_fails bounds "128").1.mpr ?_,
    (cast_text_ansi_fails bounds "9223372036854775808").2.1.mpr ?_⟩
  · exact ⟨128, (numeral_toString 128).denotes, by decide, by decide, by decide⟩
  · intro number denotes
    obtain rfl := denotes_aboveLong.unique denotes
    decide

/-- So a numeral beyond the bounds is not always told from what is no numeral. -/
theorem not_forall_cast_text_overflows :
    ¬∀ (text : String) (target : DataType) (least greatest : Int),
      target.integralBounds? = some (least, greatest) →
      ((∃ shown type, (string text).cast target .ansi = .error (.overflow shown type)) ↔
        ∃ number, Denotes text.toList number ∧ ¬(least ≤ number ∧ number ≤ greatest)) ∧
      ((∃ shown type, (string text).cast target .ansi = .error (.malformed shown type)) ↔
        ¬∃ number, Denotes text.toList number) := by
  intro told
  obtain ⟨-, malformed⟩ := told "9223372036854775808" .long _ _ rfl
  have failed : (string "9223372036854775808").cast .long .ansi =
      .error (.malformed "9223372036854775808" .long) := rfl
  exact malformed.mp ⟨_, _, failed⟩ ⟨_, denotes_aboveLong⟩

end GpuPlacement.Scalar
