import GpuPlacement.Proofs.FloatValues
/-!
Finite words are determined by their signs and numbers, since the significand of a word either fills
the format or stands at the least exponent. So a single precision word comes back from the double
precision word of the same number.
-/
namespace GpuPlacement

namespace FloatWord

variable {format : BinaryFormat}

theorem eq_of_fields {word other : FloatWord format} (sign : word.negative = other.negative)
    (field : word.magnitudeField = other.magnitudeField) : word = other := by
  have weight : 0 < format.signWeight := Nat.two_pow_pos _
  have split (word : FloatWord format) : word.bits.toNat =
      word.magnitudeField + if word.negative then format.signWeight else 0 := by
    have width := format.two_pow_width ▸ word.bits.isLt
    rw [magnitudeField, negative]
    simp only [decide_eq_true_eq]
    split
    next high => rw [Nat.mod_eq_sub_mod high, Nat.mod_eq_of_lt (by omega)]; omega
    next low => rw [Nat.mod_eq_of_lt (by omega), Nat.add_zero]
  have same : word.bits.toNat = other.bits.toNat := by
    rw [split, split, sign, field]
  cases word
  cases other
  exact congrArg mk (BitVec.eq_of_toNat_eq same)

/-- More steps would need a significand beyond the format. -/
theorem steps_le {hidden significand other steps others : Nat}
    (short : significand < 2 * hidden) (full : others = 0 ∨ hidden ≤ other)
    (same : significand * 2 ^ steps = other * 2 ^ others) : others ≤ steps := by
  by_contra more
  obtain ⟨extra, rfl⟩ := Nat.exists_eq_add_of_lt (Nat.lt_of_not_le more)
  have large := full.resolve_left (by omega)
  have value : significand = other * 2 ^ extra * 2 := by
    apply Nat.eq_of_mul_eq_mul_right (Nat.two_pow_pos steps)
    rw [same]
    ring
  have : other ≤ other * 2 ^ extra := Nat.le_mul_of_pos_right _ (Nat.two_pow_pos _)
  omega

/-- Two words of one sign and one number are the same word. -/
theorem eq_of_number {word other : FloatWord format} {negative : Bool}
    {significand significand' : Nat} {exponent exponent' : Int}
    (finite : word.datum = .finite negative significand exponent)
    (finite' : other.datum = .finite negative significand' exponent')
    (same : (significand * 2 ^ exponent : ℚ) = significand' * 2 ^ exponent') : word = other := by
  obtain ⟨sign, short, steps, rfl, full, field, -⟩ := fields_of_datum finite
  obtain ⟨sign', short', steps', rfl, full', field', -⟩ := fields_of_datum finite'
  have scaled : significand * 2 ^ steps = significand' * 2 ^ steps' := by
    rw [zpow_add₀ two_ne_zero, zpow_add₀ two_ne_zero, mul_left_comm, mul_left_comm (b := _ ^ _)]
      at same
    have := mul_left_cancel₀ (zpow_ne_zero _ two_ne_zero) same
    rw [zpow_natCast, zpow_natCast] at this
    exact_mod_cast this
  rw [Nat.pow_succ, Nat.mul_comm] at short short'
  -- Neither word can have more steps than the other, and equal steps leave equal significands.
  obtain rfl : steps = steps' :=
    Nat.le_antisymm (steps_le short' full scaled.symm) (steps_le short full' scaled)
  obtain rfl := Nat.eq_of_mul_eq_mul_right (Nat.two_pow_pos steps) scaled
  exact eq_of_fields (sign.trans sign'.symm) (field.trans field'.symm)

/-- A finite single precision word comes back from double precision. -/
theorem convert_double_single {word : Binary32} (finite : word.datum.isFinite = true) :
    (word.convert .double).convert .single = word := by
  cases seen : word.datum with
  | notANumber | infinite => rw [seen] at finite; cases finite
  | finite negative significand exponent =>
      have holds := holds_of_datum (by decide) seen
      obtain ⟨wide, place, widened, number⟩ :=
        exists_datum_ofDatum holds.double rfl negative
      obtain ⟨kept, last, narrowed, number'⟩ := exists_datum_ofDatum holds number negative
      have middle : (word.convert .double).datum = .finite negative wide place := by
        rw [convert, seen, widened]
      have back : ((word.convert .double).convert .single).datum = .finite negative kept last := by
        rw [convert, middle, narrowed]
      exact eq_of_number back seen number'

end FloatWord

end GpuPlacement
