import Mathlib.Data.List.DropRight
import Mathlib.Data.Nat.Digits.Defs
import GpuPlacement.Number.Decimal
import GpuPlacement.Text.Blank
/-!
Integer numerals: an optional sign and decimal digits. A trimmed text is read as an integer just
when it is a numeral with blanks around it, and what is printed for an integer is a numeral of it.
-/
namespace GpuPlacement

/-- Decimal digits and the sum of their place values. -/
structure Digits (text : List Char) (number : Nat) : Prop where
  nonempty : text ≠ []
  digits : ∀ c ∈ text, c.isDigit = true
  value : number = Nat.ofDigits 10 (text.reverse.map fun c => c.toNat - '0'.toNat)

inductive Numeral : List Char → Int → Prop
  | unsigned {digits number} : Digits digits number → Numeral digits number
  | plus {digits number} : Digits digits number → Numeral ('+' :: digits) number
  | minus {digits number} : Digits digits number → Numeral ('-' :: digits) (-number)

/-- A numeral with blanks around it and nothing else. -/
def Denotes (text : List Char) (number : Int) : Prop :=
  ∃ before numeral after, text = before ++ (numeral ++ after) ∧
    (∀ c ∈ before, isBlank c = true) ∧ (∀ c ∈ after, isBlank c = true) ∧ Numeral numeral number

variable {text digits : List Char} {number least greatest : Int}

theorem digitsValue_eq (text : List Char) :
    digitsValue text = Nat.ofDigits 10 (text.reverse.map fun c => c.toNat - '0'.toNat) := by
  induction text using List.reverseRecOn with
  | nil => rfl
  | append_singleton front c ih =>
      rw [digitsValue, List.foldl_append, ← digitsValue, ih]
      simp [Nat.ofDigits_cons, Nat.add_comm]

theorem readDigits?_eq_some_iff {number : Nat} :
    readDigits? text = some number ↔ Digits text number := by
  rw [readDigits?]
  constructor
  · intro read
    split at read
    next accepted =>
      obtain ⟨nonempty, digits⟩ := Bool.and_eq_true_iff.mp accepted
      obtain rfl := Option.some.inj read
      exact ⟨of_decide_eq_true nonempty, List.all_eq_true.mp digits, digitsValue_eq text⟩
    next => cases read
  · intro written
    have accepted : (decide (text ≠ []) && text.all Char.isDigit) = true :=
      Bool.and_eq_true_iff.mpr
        ⟨decide_eq_true written.nonempty, List.all_eq_true.mpr written.digits⟩
    rw [if_pos accepted, digitsValue_eq, written.value]

theorem splitSign_of_digits (digits : ∀ c ∈ text, c.isDigit = true) :
    splitSign text = (false, text) := by
  unfold splitSign
  split
  next => exact absurd (digits '-' List.mem_cons_self) (by decide)
  next => exact absurd (digits '+' List.mem_cons_self) (by decide)
  next => rfl

/-- The value of a numeral that is split into its sign and its digits. -/
theorem readInteger?_eq (text : List Char) :
    readInteger? text = (readDigits? (splitSign text).2).map fun magnitude : Nat =>
      if (splitSign text).1 = true then -(magnitude : Int) else magnitude := by
  unfold readInteger?
  rcases splitSign text with ⟨negative, digits⟩
  dsimp only
  cases readDigits? digits <;> rfl

theorem readInteger?_eq_some_iff : readInteger? text = some number ↔ Numeral text number := by
  rw [readInteger?_eq, Option.map_eq_some_iff]
  simp only [readDigits?_eq_some_iff]
  constructor
  · rintro ⟨magnitude, written, rfl⟩
    unfold splitSign at written ⊢
    split at written
    next => exact .minus written
    next => exact .plus written
    next => exact .unsigned written
  · intro numeral
    cases numeral with
    | unsigned written =>
        rw [splitSign_of_digits written.digits]
        exact ⟨_, written, rfl⟩
    | plus written => exact ⟨_, written, rfl⟩
    | minus written => exact ⟨_, written, rfl⟩

/-- A numeral that has no minus. -/
inductive Natural : List Char → Nat → Prop
  | unsigned {digits : List Char} {number : Nat} : Digits digits number → Natural digits number
  | plus {digits : List Char} {number : Nat} : Digits digits number → Natural ('+' :: digits) number

theorem readNatural?_eq_some_iff {number : Nat} :
    readNatural? text = some number ↔ Natural text number := by
  unfold readNatural?
  constructor
  · intro read
    split at read
    next => exact .plus (readDigits?_eq_some_iff.mp read)
    next => exact .unsigned (readDigits?_eq_some_iff.mp read)
  · intro natural
    cases natural with
    | plus written => exact readDigits?_eq_some_iff.mpr written
    | unsigned written =>
        split
        next => exact absurd (written.digits '+' List.mem_cons_self) (by decide)
        next => exact readDigits?_eq_some_iff.mpr written

theorem Natural.numeral {number : Nat} (natural : Natural text number) : Numeral text number := by
  cases natural with
  | unsigned written => exact .unsigned written
  | plus written => exact .plus written

theorem range_of_isDigit {c : Char} (digit : c.isDigit = true) : 48 ≤ c.toNat ∧ c.toNat ≤ 57 := by
  simpa [Char.isDigit, UInt32.le_iff_toNat_le] using digit

theorem isBlank_of_isDigit {c : Char} (digit : c.isDigit = true) : isBlank c = false := by
  have range := range_of_isDigit digit
  simp [isBlank, blankRanges]
  omega

theorem Digits.not_blank {number : Nat} (written : Digits text number) :
    ∀ c ∈ text, isBlank c = false :=
  fun c member => isBlank_of_isDigit (written.digits c member)

namespace Numeral

theorem nonempty (numeral : Numeral text number) : text ≠ [] := by
  cases numeral with
  | unsigned written => exact written.nonempty
  | plus => exact List.cons_ne_nil _ _
  | minus => exact List.cons_ne_nil _ _

theorem not_blank (numeral : Numeral text number) : ∀ c ∈ text, isBlank c = false := by
  cases numeral with
  | unsigned written => exact written.not_blank
  | plus written => exact List.forall_mem_cons.mpr ⟨by decide, written.not_blank⟩
  | minus written => exact List.forall_mem_cons.mpr ⟨by decide, written.not_blank⟩

end Numeral

theorem dropWhile_blanks {before core : List Char} (blank : ∀ c ∈ before, isBlank c = true)
    (ends : ∀ c ∈ core.head?, isBlank c = false) :
    (before ++ core).dropWhile isBlank = core := by
  rw [List.dropWhile_append_of_pos blank]
  cases core with
  | nil => rfl
  | cons c rest => exact List.dropWhile_cons_of_neg (by simp [ends c rfl])

/-- Trimming leaves what stands between the blanks at both ends. -/
theorem trimChars_between {before core after : List Char}
    (leading : ∀ c ∈ before, isBlank c = true) (trailing : ∀ c ∈ after, isBlank c = true)
    (nonempty : core ≠ []) (first : ∀ c ∈ core.head?, isBlank c = false)
    (last : ∀ c ∈ core.getLast?, isBlank c = false) :
    trimChars (before ++ (core ++ after)) = core := by
  have front : ∀ c ∈ (core ++ after).head?, isBlank c = false := by
    rwa [List.head?_append_of_ne_nil core nonempty]
  have back : ∀ c ∈ core.reverse.head?, isBlank c = false := by rwa [List.head?_reverse]
  have behind : ∀ c ∈ after.reverse, isBlank c = true :=
    fun c member => trailing c (List.mem_reverse.mp member)
  rw [trimChars, dropWhile_blanks leading front, dropTrailing, List.reverse_append,
    dropWhile_blanks behind back, List.reverse_reverse]

theorem exists_blanks (text : List Char) :
    ∃ before after, text = before ++ (trimChars text ++ after) ∧
      (∀ c ∈ before, isBlank c = true) ∧ ∀ c ∈ after, isBlank c = true := by
  refine ⟨text.takeWhile isBlank, (text.dropWhile isBlank).rtakeWhile isBlank, ?_,
    fun c => List.mem_takeWhile_imp, fun c => List.mem_rtakeWhile_imp⟩
  calc text = text.takeWhile isBlank ++ text.dropWhile isBlank :=
        List.takeWhile_append_dropWhile.symm
    _ = _ := congrArg _ (List.rdropWhile_append_rtakeWhile ..).symm

/-- What holds only of texts without blanks holds of a trimmed text just when it holds of a part
with blanks around it and nothing else. -/
theorem trimChars_iff {p : List Char → Prop}
    (solid : ∀ core, p core → core ≠ [] ∧ ∀ c ∈ core, isBlank c = false) :
    p (trimChars text) ↔ ∃ before core after, text = before ++ (core ++ after) ∧
      (∀ c ∈ before, isBlank c = true) ∧ (∀ c ∈ after, isBlank c = true) ∧ p core := by
  constructor
  · intro holds
    obtain ⟨before, after, whole, leading, trailing⟩ := exists_blanks text
    exact ⟨before, _, after, whole, leading, trailing, holds⟩
  · rintro ⟨before, core, after, rfl, leading, trailing, holds⟩
    obtain ⟨nonempty, visible⟩ := solid core holds
    have inner : trimChars (before ++ (core ++ after)) = core := by
      apply trimChars_between leading trailing nonempty
      · exact fun c first => visible c (List.mem_of_mem_head? first)
      · exact fun c last => visible c (List.mem_of_mem_getLast? last)
    rwa [inner]

/-- The reader of trimmed texts takes exactly the texts that denote an integer. -/
theorem readInteger?_trimChars :
    readInteger? (trimChars text) = some number ↔ Denotes text number := by
  rw [readInteger?_eq_some_iff]
  exact trimChars_iff (p := (Numeral · number)) fun _ numeral =>
    ⟨numeral.nonempty, numeral.not_blank⟩

theorem readIntegerIn?_trimChars :
    readIntegerIn? least greatest (trimChars text) = some number ↔
      Denotes text number ∧ least ≤ number ∧ number ≤ greatest := by
  rw [readIntegerIn?, Option.filter_eq_some_iff, readInteger?_trimChars, decide_eq_true_iff]

/-- No text denotes two integers. -/
theorem Denotes.unique {other : Int} (denotes : Denotes text number) (also : Denotes text other) :
    number = other := by
  have read := readInteger?_trimChars.mpr denotes
  rw [readInteger?_trimChars.mpr also] at read
  exact (Option.some.inj read).symm

theorem Numeral.denotes (numeral : Numeral text number) : Denotes text number :=
  ⟨[], text, [], by simp, List.forall_mem_nil _, List.forall_mem_nil _, numeral⟩

theorem digits_toDigits (number : Nat) : Digits (Nat.toDigits 10 number) number where
  nonempty := Nat.toDigits_ne_nil
  digits := fun _ member => Nat.isDigit_of_mem_toDigits (by decide) (by decide) member
  value := by
    rw [← digitsValue_eq, digitsValue, ← Nat.ofDigitChars_eq_foldl,
      Nat.ofDigitChars_ten_toDigits]

theorem numeral_natural (number : Nat) : Numeral (toString number).toList number := by
  rw [Nat.toString_eq_repr, Nat.toList_repr]
  exact .unsigned (digits_toDigits number)

/-- The text that is printed for an integer is a numeral of it. -/
theorem numeral_toString (number : Int) : Numeral (toString number).toList number := by
  rw [Int.toString_eq_repr]
  cases number with
  | ofNat magnitude => exact numeral_natural magnitude
  | negSucc magnitude =>
      rw [Int.repr, String.toList_append, Nat.toList_repr, Int.negSucc_eq]
      exact .minus (digits_toDigits (magnitude + 1))

/-- Texts without a mark end where the mark first stands. -/
theorem append_mark_inj {mark : Char} {other rest otherRest : List Char} (free : mark ∉ text)
    (otherFree : mark ∉ other) (same : text ++ mark :: rest = other ++ mark :: otherRest) :
    text = other ∧ rest = otherRest := by
  rcases List.append_eq_append_iff.mp same with ⟨between, rfl, behind⟩ | ⟨between, rfl, behind⟩
  · cases between with
    | nil => exact ⟨(List.append_nil text).symm, (List.cons.inj behind).2⟩
    | cons c more =>
        obtain ⟨rfl, -⟩ := List.cons.inj behind
        exact absurd (List.mem_append_right text List.mem_cons_self) otherFree
  · cases between with
    | nil => exact ⟨List.append_nil other, (List.cons.inj behind).2.symm⟩
    | cons c more =>
        obtain ⟨rfl, -⟩ := List.cons.inj behind
        exact absurd (List.mem_append_right other List.mem_cons_self) free

namespace Numeral

/-- A mark that is neither a digit nor a sign does not occur in a numeral. -/
theorem notMem (numeral : Numeral text number) {mark : Char} (noDigit : mark.isDigit = false)
    (noPlus : mark ≠ '+') (noMinus : mark ≠ '-') : mark ∉ text := by
  have apart : ∀ {digits : List Char} {magnitude : Nat}, Digits digits magnitude →
      mark ∉ digits := by
    intro digits magnitude written member
    exact Bool.false_ne_true (noDigit.symm.trans (written.digits mark member))
  cases numeral with
  | unsigned written => exact apart written
  | plus written => exact List.not_mem_cons_of_ne_of_not_mem noPlus (apart written)
  | minus written => exact List.not_mem_cons_of_ne_of_not_mem noMinus (apart written)

/-- A numeral ends where the mark behind it stands. -/
theorem append_inj {other rest otherRest : List Char} {otherNumber : Int} {mark : Char}
    (numeral : Numeral text number) (otherNumeral : Numeral other otherNumber)
    (noDigit : mark.isDigit = false) (noPlus : mark ≠ '+') (noMinus : mark ≠ '-')
    (same : text ++ mark :: rest = other ++ mark :: otherRest) :
    number = otherNumber ∧ rest = otherRest := by
  obtain ⟨rfl, behind⟩ := append_mark_inj (numeral.notMem noDigit noPlus noMinus)
    (otherNumeral.notMem noDigit noPlus noMinus) same
  exact ⟨numeral.denotes.unique otherNumeral.denotes, behind⟩

end Numeral

end GpuPlacement
