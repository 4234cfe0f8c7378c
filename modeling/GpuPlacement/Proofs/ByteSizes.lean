import GpuPlacement.Proofs.Numerals
import GpuPlacement.Settings.Value
/-!
Texts of byte sizes. The reader peels a text from its end, a `b` first and then the letter of a
unit; what it accepts is a numeral with a unit behind it, blanks between the two and around them,
as long as the product stays below `2 ^ 64`.
-/
namespace GpuPlacement

theorem toLower_of_not_upper {c : Char} (other : ¬(65 ≤ c.toNat ∧ c.toNat ≤ 90)) :
    c.toLower = c := by
  unfold Char.toLower
  rw [dif_neg]
  intro range
  exact other (by simpa [UInt32.le_iff_toNat_le] using range)

theorem isBlank_toLower (c : Char) : isBlank c.toLower = isBlank c := by
  by_cases upper : 65 ≤ c.toNat ∧ c.toNat ≤ 90
  · have letters : ∀ n < 26,
        isBlank (Char.ofNat (65 + n)).toLower = isBlank (Char.ofNat (65 + n)) := by
      decide
    have same : Char.ofNat (65 + (c.toNat - 65)) = c := by
      rw [Nat.add_sub_cancel' upper.1, Char.ofNat_toNat]
    have letter := letters (c.toNat - 65) (by omega)
    rwa [same] at letter
  · rw [toLower_of_not_upper upper]

theorem dropWhile_lowerChars (text : List Char) :
    (lowerChars text).dropWhile isBlank = lowerChars (text.dropWhile isBlank) := by
  have same : isBlank ∘ Char.toLower = isBlank := funext isBlank_toLower
  rw [lowerChars, List.dropWhile_map, same, lowerChars]

/-- Lower case is not in the way of trimming. -/
theorem trimChars_lowerChars (text : List Char) :
    trimChars (lowerChars text) = lowerChars (trimChars text) := by
  have reversed (text : List Char) : (lowerChars text).reverse = lowerChars text.reverse :=
    List.map_reverse.symm
  rw [trimChars, dropWhile_lowerChars, dropTrailing, reversed, dropWhile_lowerChars, reversed]
  rfl

namespace ByteSize

/-- The letter of a unit in lower case and its power of 1024. -/
inductive UnitLetter : List Char → Nat → Prop
  | bytes : UnitLetter [] 0
  | kilo : UnitLetter ['k'] 1
  | mega : UnitLetter ['m'] 2
  | giga : UnitLetter ['g'] 3
  | tera : UnitLetter ['t'] 4

/-- A text in lower case that expresses so many units of a power of 1024. -/
def Expresses (text : List Char) (count power : Nat) : Prop :=
  ∃ before numeral gap unit mark after,
    text = before ++ (numeral ++ gap ++ (unit ++ mark) ++ after) ∧
      (∀ c ∈ before, isBlank c = true) ∧ Natural numeral count ∧ (∀ c ∈ gap, isBlank c = true) ∧
      UnitLetter unit power ∧ (mark = [] ∨ mark = ['b']) ∧ ∀ c ∈ after, isBlank c = true

/-- So many units of a power of 1024, if that is a number of 64 bits. -/
def ofUnits? (count power : Nat) : Option ByteSize :=
  if count * 1024 ^ power < UInt64.size then some ⟨.ofNat (count * 1024 ^ power)⟩ else none

/-- The size of a text that is split from its unit. -/
def scaled? (numeral : List Char) (power : Nat) : Option ByteSize :=
  (readNatural? (trimChars numeral)).bind (ofUnits? · power)

/-- The size of a text without a `b` at its end, last character first. -/
def ofUnmarked? : List Char → Option ByteSize
  | [] => none
  | last :: rest =>
    match unitPower? last with
    | some power => scaled? rest.reverse power
    | none => scaled? (last :: rest).reverse 0

variable {numeral unit mark text : List Char} {raw : String} {count power : Nat} {size : ByteSize}

theorem ofReversed?_marked (rest : List Char) : ofReversed? ('b' :: rest) = ofUnmarked? rest := by
  cases rest with
  | nil => rfl
  | cons last rest =>
      simp only [ofReversed?, ofUnmarked?]
      cases unitPower? last <;> rfl

theorem ofReversed?_unmarked {reversed : List Char} (unmarked : ∀ c ∈ reversed.head?, c ≠ 'b') :
    ofReversed? reversed = ofUnmarked? reversed := by
  cases reversed with
  | nil => rfl
  | cons last rest =>
      have other : last ≠ 'b' := unmarked last rfl
      cases known : unitPower? last <;>
        simp [ofReversed?, ofUnmarked?, scaled?, ofUnits?, other, known]

theorem unitPower?_eq_some_iff {c : Char} : unitPower? c = some power ↔ UnitLetter [c] power := by
  constructor
  · intro known
    unfold unitPower? at known
    split at known <;> cases known <;> constructor
  · intro letter
    cases letter <;> rfl

/-- The letters that the reader peels from the end. -/
def letters : List Char :=
  ['b', 'k', 'm', 'g', 't']

theorem notMem_letters {p : Char → Bool} (others : letters.any p = false) {c : Char}
    (h : p c = true) : c ∉ letters :=
  fun member => List.any_eq_false.mp others c member h

theorem unitPower?_eq_none {c : Char} (h : c ∉ letters) : unitPower? c = none := by
  unfold unitPower?
  split
  all_goals first | rfl | exact absurd (by decide) h

theorem ofUnmarked?_unit (nonempty : numeral ≠ []) (plain : ∀ c ∈ numeral, c ∉ letters)
    (letter : UnitLetter unit power) :
    ofUnmarked? (numeral ++ unit).reverse = scaled? numeral power := by
  rw [List.reverse_append]
  cases letter with
  | bytes =>
      obtain rfl | ⟨front, last, rfl⟩ := List.eq_nil_or_concat' numeral
      · exact absurd rfl nonempty
      · have other := unitPower?_eq_none (plain last (List.mem_append_right _ List.mem_cons_self))
        simp [ofUnmarked?, other]
  | kilo => exact congrArg (scaled? · 1) (List.reverse_reverse numeral)
  | mega => exact congrArg (scaled? · 2) (List.reverse_reverse numeral)
  | giga => exact congrArg (scaled? · 3) (List.reverse_reverse numeral)
  | tera => exact congrArg (scaled? · 4) (List.reverse_reverse numeral)

theorem ofReversed?_parts (nonempty : numeral ≠ []) (plain : ∀ c ∈ numeral, c ∉ letters)
    (letter : UnitLetter unit power) (marked : mark = [] ∨ mark = ['b']) :
    ofReversed? (numeral ++ (unit ++ mark)).reverse = scaled? numeral power := by
  rw [← ofUnmarked?_unit nonempty plain letter]
  rcases marked with rfl | rfl
  · rw [List.append_nil]
    apply ofReversed?_unmarked
    intro c first
    rw [List.head?_reverse] at first
    rintro rfl
    rcases List.mem_append.mp (List.mem_of_mem_getLast? first) with front | back
    · exact plain 'b' front (by decide)
    · cases letter <;> simp at back
  · rw [← List.append_assoc, List.reverse_append]
    exact ofReversed?_marked _

theorem exists_unit {reversed : List Char} (read : ofUnmarked? reversed = some size) :
    ∃ numeral unit power, reversed.reverse = numeral ++ unit ∧ UnitLetter unit power ∧
      scaled? numeral power = some size := by
  cases reversed with
  | nil => cases read
  | cons last rest =>
      rw [ofUnmarked?] at read
      cases known : unitPower? last with
      | none =>
          rw [known] at read
          exact ⟨_, [], 0, (List.append_nil _).symm, .bytes, read⟩
      | some power =>
          rw [known] at read
          exact ⟨_, [last], power, List.reverse_cons, unitPower?_eq_some_iff.mp known, read⟩

theorem exists_parts {reversed : List Char} (read : ofReversed? reversed = some size) :
    ∃ numeral unit mark power, reversed.reverse = numeral ++ (unit ++ mark) ∧
      UnitLetter unit power ∧ (mark = [] ∨ mark = ['b']) ∧ scaled? numeral power = some size := by
  by_cases marked : reversed.head? = some 'b'
  · obtain ⟨rest, rfl⟩ := List.head?_eq_some_iff.mp marked
    rw [ofReversed?_marked] at read
    obtain ⟨numeral, unit, power, split, letter, scaled⟩ := exists_unit read
    refine ⟨numeral, unit, ['b'], power, ?_, letter, .inr rfl, scaled⟩
    rw [List.reverse_cons, split, List.append_assoc]
  · rw [ofReversed?_unmarked fun c first same => marked (same ▸ first)] at read
    obtain ⟨numeral, unit, power, split, letter, scaled⟩ := exists_unit read
    exact ⟨numeral, unit, [], power, by rw [split, List.append_nil], letter, .inl rfl, scaled⟩

theorem readNatural?_trimChars : readNatural? (trimChars text) = some count ↔
    ∃ before numeral after, text = before ++ (numeral ++ after) ∧
      (∀ c ∈ before, isBlank c = true) ∧ (∀ c ∈ after, isBlank c = true) ∧
        Natural numeral count := by
  rw [readNatural?_eq_some_iff]
  exact trimChars_iff (p := (Natural · count)) fun _ natural =>
    ⟨natural.numeral.nonempty, natural.numeral.not_blank⟩

theorem scaled?_natural {gap : List Char} (natural : Natural numeral count)
    (between : ∀ c ∈ gap, isBlank c = true) (power : Nat) :
    scaled? (numeral ++ gap) power = ofUnits? count power := by
  have read := readNatural?_trimChars.mpr
    ⟨[], numeral, gap, rfl, List.forall_mem_nil _, between, natural⟩
  rw [List.nil_append] at read
  rw [scaled?, read, Option.bind_some]

theorem natural_plain (natural : Natural numeral count) : ∀ c ∈ numeral, c ∉ letters := by
  have digits {text : List Char} {number : Nat} (written : Digits text number) :
      ∀ c ∈ text, c ∉ letters :=
    fun c member => notMem_letters (by decide) (written.digits c member)
  cases natural with
  | unsigned written => exact digits written
  | plus written => exact List.forall_mem_cons.mpr ⟨by decide, digits written⟩

/-- What trimming leaves of a text that expresses a size. -/
theorem Expresses.exists_trimmed (expressed : Expresses text count power) :
    ∃ numeral gap unit mark, trimChars text = numeral ++ gap ++ (unit ++ mark) ∧
      Natural numeral count ∧ (∀ c ∈ gap, isBlank c = true) ∧ UnitLetter unit power ∧
        (mark = [] ∨ mark = ['b']) := by
  obtain ⟨before, numeral, gap, unit, mark, after, rfl, leading, natural, between, letter, marked,
    trailing⟩ := expressed
  by_cases bare : unit ++ mark = []
  · -- Without letters the blanks behind the numeral are part of those at the end.
    obtain ⟨rfl, rfl⟩ := List.append_eq_nil_iff.mp bare
    refine ⟨numeral, [], [], [], ?_, natural, List.forall_mem_nil _, letter, marked⟩
    simp only [List.append_nil, List.append_assoc]
    apply trimChars_between leading _ natural.numeral.nonempty
    · exact fun c first => natural.numeral.not_blank c (List.mem_of_mem_head? first)
    · exact fun c last => natural.numeral.not_blank c (List.mem_of_mem_getLast? last)
    · exact List.forall_mem_append.mpr ⟨between, trailing⟩
  · refine ⟨numeral, gap, unit, mark, ?_, natural, between, letter, marked⟩
    have visible : (unit ++ mark).any isBlank = false := by
      rcases marked with rfl | rfl <;> cases letter <;> decide
    apply trimChars_between leading trailing
    · simp [natural.numeral.nonempty]
    · rw [List.append_assoc, List.head?_append_of_ne_nil _ natural.numeral.nonempty]
      exact fun c first => natural.numeral.not_blank c (List.mem_of_mem_head? first)
    · rw [List.getLast?_append_of_ne_nil _ bare]
      exact fun c last =>
        Bool.eq_false_iff.mpr (List.any_eq_false.mp visible c (List.mem_of_mem_getLast? last))

theorem Expresses.read (expressed : Expresses text count power) :
    ofReversed? (trimChars text).reverse = ofUnits? count power := by
  obtain ⟨numeral, gap, unit, mark, trimmed, natural, between, letter, marked⟩ :=
    expressed.exists_trimmed
  have plain : ∀ c ∈ numeral ++ gap, c ∉ letters :=
    List.forall_mem_append.mpr ⟨natural_plain natural, fun c blank =>
      notMem_letters (by decide) (between c blank)⟩
  rw [trimmed, ofReversed?_parts (by simp [natural.numeral.nonempty]) plain letter marked,
    scaled?_natural natural between]

theorem exists_expresses (read : ofReversed? (trimChars text).reverse = some size) :
    ∃ count power, Expresses text count power ∧ ofUnits? count power = some size := by
  obtain ⟨before, after, whole, leading, trailing⟩ := exists_blanks text
  obtain ⟨sized, unit, mark, power, split, letter, marked, scaled⟩ := exists_parts read
  rw [List.reverse_reverse] at split
  obtain ⟨count, natural, units⟩ := Option.bind_eq_some_iff.mp scaled
  obtain ⟨front, numeral, gap, rfl, blank, between, natural⟩ := readNatural?_trimChars.mp natural
  refine ⟨count, power, ⟨before ++ front, numeral, gap, unit, mark, after, ?_, ?_, natural, between,
    letter, marked, trailing⟩, units⟩
  · rw [whole, split]
    simp only [List.append_assoc]
  · exact List.forall_mem_append.mpr ⟨leading, blank⟩

theorem Expresses.ofText?_eq (expressed : Expresses (lowerChars raw.toList) count power) :
    ofText? raw = ofUnits? count power := by
  rw [ofText?, ← trimChars_lowerChars, expressed.read]

theorem ofUnits?_eq_some_iff : ofUnits? count power = some size ↔
    count * 1024 ^ power < 2 ^ 64 ∧ size.bytes.toNat = count * 1024 ^ power := by
  rw [ofUnits?, Option.ite_none_right_eq_some]
  constructor
  · rintro ⟨small, ⟨⟩⟩
    exact ⟨small, UInt64.toNat_ofNat_of_lt small⟩
  · rintro ⟨small, same⟩
    refine ⟨small, ?_⟩
    rw [← same, UInt64.ofNat_toNat]

/-- A text is a byte size just when it expresses a number of units, neither of which takes more than
64 bits, and then it is exactly the size that it expresses. -/
theorem ofText?_accepts (raw : String) :
    ((∃ size, ofText? raw = some size) ↔
      ∃ count power, Expresses (lowerChars raw.toList) count power ∧ count < 2 ^ 64 ∧
        count * 1024 ^ power < 2 ^ 64) ∧
    ∀ size count power, ofText? raw = some size → Expresses (lowerChars raw.toList) count power →
      size.bytes.toNat = count * 1024 ^ power := by
  refine ⟨⟨?_, ?_⟩, ?_⟩
  · rintro ⟨size, read⟩
    rw [ofText?, ← trimChars_lowerChars] at read
    obtain ⟨count, power, expressed, units⟩ := exists_expresses read
    obtain ⟨small, -⟩ := ofUnits?_eq_some_iff.mp units
    have fewer : count ≤ count * 1024 ^ power := Nat.le_mul_of_pos_right _ (by positivity)
    exact ⟨count, power, expressed, by omega, small⟩
  · rintro ⟨count, power, expressed, -, small⟩
    exact ⟨⟨.ofNat (count * 1024 ^ power)⟩, expressed.ofText?_eq.trans (if_pos small)⟩
  · intro size count power read expressed
    rw [expressed.ofText?_eq] at read
    exact (ofUnits?_eq_some_iff.mp read).2

example : ofText? " +0512 MB\t" = some ⟨512 * 1024 ^ 2⟩ ∧ ofText? "16777216t" = none ∧
    ofText? "1k b" = none := by
  decide +kernel

end ByteSize

end GpuPlacement
