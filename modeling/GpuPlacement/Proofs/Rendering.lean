import GpuPlacement.Proofs.ByteSizes
import GpuPlacement.Proofs.Resolution
/-!
Rendered settings. Truth values, integers, byte sizes, texts, lists and report modes are read back
from the raw texts that are rendered for them, however the original text was written. So once a
setting is resolved, its rendered value can take its place.
-/
namespace GpuPlacement

variable {α : Type} [SettingValue α]

/-- Whatever text a value was read from, the text rendered for the value is read as the same one. -/
def Rereads (α : Type) [SettingValue α] : Prop :=
  ∀ (raw : String) (value : α), SettingValue.parse raw = some value →
    SettingValue.parse (SettingValue.render value) = some value

/-- The rendered value of any entry of the type may take the place of its raw text. -/
def Resettles (α : Type) [SettingValue α] : Prop :=
  ∀ (entry : Entry α) (settings : Settings) (text : String),
    settings.contains entry.key = true → entry.view.resolveText settings = .ok text →
      entry.resolve (settings.insert entry.key text) = entry.resolve settings ∧
        entry.view.resolveText (settings.insert entry.key text) = .ok text

/-- The entry's check is passed again, as it sees the same value. -/
theorem Rereads.resettles (rereads : Rereads α) : Resettles α := by
  intro entry settings text present resolved
  obtain ⟨raw, given⟩ := Option.isSome_iff_exists.mp present
  obtain ⟨value, first, rendered⟩ := map_eq_ok_iff.mp resolved
  have read := first
  rw [entry.resolve_of_get? given, entry.valueOf_eq_ok_iff] at read
  obtain ⟨parsed, passes⟩ := read
  have again : entry.resolve (settings.insert entry.key text) = .ok value := by
    rw [entry.resolve_insert, if_pos rfl, entry.valueOf_eq_ok_iff, ← rendered]
    exact ⟨rereads raw value parsed, passes⟩
  exact ⟨again.trans first.symm, map_eq_ok_iff.mpr ⟨value, again, rendered⟩⟩

theorem rereads_bool : Rereads Bool := by
  intro raw value parsed
  exact parseBool_renderBool value

theorem rereads_reportMode : Rereads ReportMode := by
  intro raw value parsed
  cases value <;> rfl

theorem rereads_string : Rereads String := by
  intro raw value parsed
  rfl

theorem readIntegerIn?_toString {least greatest number : Int} (above : least ≤ number)
    (below : number ≤ greatest) :
    readIntegerIn? least greatest (trimChars (toString number).toList) = some number :=
  readIntegerIn?_trimChars.mpr ⟨(numeral_toString number).denotes, above, below⟩

theorem rereads_int32 : Rereads Int32 := by
  intro raw value parsed
  have read := readIntegerIn?_toString value.minValue_le_toInt value.toInt_le
  exact Option.map_eq_some_iff.mpr ⟨value.toInt, read, value.ofInt_toInt⟩

theorem rereads_int64 : Rereads Int64 := by
  intro raw value parsed
  have read := readIntegerIn?_toString value.minValue_le_toInt value.toInt_le
  exact Option.map_eq_some_iff.mpr ⟨value.toInt, read, value.ofInt_toInt⟩

theorem lowerChars_digits {text : List Char} (digits : ∀ c ∈ text, c.isDigit = true) :
    lowerChars text = text := by
  rw [lowerChars, List.map_congr_left (g := id), List.map_id]
  intro c member
  have range := range_of_isDigit (digits c member)
  exact toLower_of_not_upper (by omega)

theorem rereads_byteSize : Rereads ByteSize := by
  intro raw size parsed
  have written := digits_toDigits size.bytes.toNat
  have plain : (toString size.bytes.toNat).toList = Nat.toDigits 10 size.bytes.toNat :=
    Nat.toList_repr ..
  have expressed : ByteSize.Expresses (lowerChars (toString size.bytes.toNat).toList)
      size.bytes.toNat 0 := by
    rw [plain, lowerChars_digits written.digits]
    exact ⟨[], _, [], [], [], [], by simp, List.forall_mem_nil _, .unsigned written,
      List.forall_mem_nil _, .bytes, .inl rfl, List.forall_mem_nil _⟩
  have units : ByteSize.ofUnits? size.bytes.toNat 0 = some size :=
    ByteSize.ofUnits?_eq_some_iff.mpr (by simpa using size.bytes.toNat_lt)
  exact expressed.ofText?_eq.trans units

theorem splitChars_eq_splitOn (separator : Char) (text : List Char) :
    splitChars separator text = text.splitOn separator := by
  induction text with
  | nil => rfl
  | cons c rest ih =>
      rw [splitChars, List.splitOn_cons_eq_if_modifyHead, ih]
      by_cases same : c = separator
      · simp [same]
      · cases split : rest.splitOn separator with
        | nil => exact absurd split (List.splitOn_ne_nil _ _)
        | cons item items => simp [same]

theorem notMem_of_mem_splitOn {separator : Char} {text item : List Char}
    (member : item ∈ text.splitOn separator) : separator ∉ item := by
  induction text generalizing item with
  | nil =>
      rw [List.splitOn_nil, List.mem_singleton] at member
      exact member ▸ List.not_mem_nil
  | cons c rest ih =>
      rw [List.splitOn_cons_eq_if_modifyHead] at member
      split at member
      next =>
        rcases List.mem_cons.mp member with rfl | later
        · exact List.not_mem_nil
        · exact ih later
      next other =>
        cases split : rest.splitOn separator with
        | nil => exact absurd split (List.splitOn_ne_nil _ _)
        | cons first items =>
            rw [split] at member ih
            rw [List.modifyHead_cons] at member
            rcases List.mem_cons.mp member with rfl | later
            · rw [List.mem_cons, not_or]
              exact ⟨fun same => other (beq_iff_eq.mpr same.symm), ih List.mem_cons_self⟩
            · exact ih (List.mem_cons_of_mem _ later)

/-- What is trimmed has no blank left at its ends. -/
theorem trimChars_trimChars (text : List Char) : trimChars (trimChars text) = trimChars text := by
  have trimmed : trimChars text = (text.dropWhile isBlank).rdropWhile isBlank := rfl
  have front : (trimChars text).dropWhile isBlank = trimChars text := by
    obtain ⟨tail, whole⟩ := List.rdropWhile_prefix isBlank (text.dropWhile isBlank)
    have first := List.head?_dropWhile_not isBlank text
    rw [← whole, ← trimmed] at first
    cases left : trimChars text with
    | nil => rfl
    | cons c rest =>
        rw [left] at first
        exact List.dropWhile_cons_of_neg (Bool.eq_false_iff.mp first)
  rw [trimChars, front, trimmed]
  exact List.rdropWhile_idempotent isBlank _

theorem mem_of_mem_trimChars {text : List Char} {c : Char} (member : c ∈ trimChars text) :
    c ∈ text := by
  obtain ⟨before, after, whole, -⟩ := exists_blanks text
  rw [whole]
  exact List.mem_append_right _ (List.mem_append_left _ member)

/-- An item of a list as the reader leaves it. -/
structure Item (item : String) : Prop where
  nonempty : item.toList ≠ []
  trimmed : trimChars item.toList = item.toList
  unsplit : ',' ∉ item.toList

theorem item_of_mem_parseItems {raw item : String} (member : item ∈ parseItems raw) :
    Item item := by
  obtain ⟨text, kept, rfl⟩ := List.mem_map.mp member
  obtain ⟨among, nonempty⟩ := List.mem_filter.mp kept
  obtain ⟨part, between, rfl⟩ := List.mem_map.mp among
  rw [splitChars_eq_splitOn] at between
  refine ⟨?_, ?_, ?_⟩
  · simpa using nonempty
  · rw [String.toList_ofList, trimChars_trimChars]
  · rw [String.toList_ofList]
    exact fun comma => notMem_of_mem_splitOn between (mem_of_mem_trimChars comma)

theorem parseItems_intercalate {items : List String} (clean : ∀ item ∈ items, Item item) :
    parseItems (",".intercalate items) = items := by
  by_cases empty : items = []
  · rw [empty]
    rfl
  · have parts : splitChars ',' (",".intercalate items).toList = items.map String.toList := by
      rw [splitChars_eq_splitOn, String.toList_intercalate]
      apply List.splitOn_intercalate
      · simpa using fun item member => (clean item member).unsplit
      · simpa using empty
    have trimmed : (items.map String.toList).map trimChars = items.map String.toList := by
      rw [List.map_map]
      exact List.map_congr_left fun item member => (clean item member).trimmed
    have kept : (items.map String.toList).filter (!·.isEmpty) = items.map String.toList := by
      rw [List.filter_eq_self]
      simpa using fun item member => (clean item member).nonempty
    rw [parseItems, parts, trimmed, kept, List.map_map]
    simp

theorem rereads_list : Rereads (List String) := by
  intro raw items parsed
  obtain rfl := Option.some.inj parsed
  exact congrArg some (parseItems_intercalate fun item => item_of_mem_parseItems)

/-- Truth values, integers, byte sizes, texts, lists and report modes survive being rendered, and so
the rendered value of an entry, checked or not, may replace the raw text that it was read from. -/
theorem rendered_resettles :
    (Rereads Bool ∧ Rereads Int32 ∧ Rereads Int64 ∧ Rereads ByteSize ∧ Rereads String ∧
      Rereads (List String) ∧ Rereads ReportMode) ∧
    Resettles Bool ∧ Resettles Int32 ∧ Resettles Int64 ∧ Resettles ByteSize ∧ Resettles String ∧
      Resettles (List String) ∧ Resettles ReportMode :=
  ⟨⟨rereads_bool, rereads_int32, rereads_int64, rereads_byteSize, rereads_string, rereads_list,
    rereads_reportMode⟩, rereads_bool.resettles, rereads_int32.resettles, rereads_int64.resettles,
    rereads_byteSize.resettles, rereads_string.resettles, rereads_list.resettles,
    rereads_reportMode.resettles⟩

example : Catalog.batchSizeBytes.view.resolveText
    (Dict.empty.insert Catalog.batchSizeBytes.key " 2 KB ") = .ok "2048" := by
  rfl

end GpuPlacement
