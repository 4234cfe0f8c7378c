import GpuPlacement.Proofs.Numerals
import GpuPlacement.Proofs.Signatures
/-!
Names of types are uniquely readable. The name of a type determines the type, and it ends at one
place only, whatever text stands behind it: the words that open names are not prefixes of each
other, numerals end at the first mark behind them, and lists of fields at their closing bracket.
-/
namespace GpuPlacement

theorem TypeFamily.eq_of_opening : ∀ family ∈ all, ∀ other ∈ all,
    family.name.toList <+: other.name.toList → family = other := by
  decide +kernel

/-- The names of families end where a bracket opens, or else with the name of the type. -/
theorem TypeFamily.name_append_inj {family other : TypeFamily} {rest otherRest : List Char}
    (same : family.name.toList ++ rest = other.name.toList ++ otherRest) :
    family = other ∧ rest = otherRest := by
  have sameFamily : family = other := by
    rcases List.prefix_or_prefix_of_prefix (List.prefix_append _ rest)
      (same ▸ List.prefix_append other.name.toList otherRest) with within | within
    · exact eq_of_opening _ family.mem_all _ other.mem_all within
    · exact (eq_of_opening _ other.mem_all _ family.mem_all within).symm
  subst sameFamily
  exact ⟨rfl, List.append_cancel_left same⟩

namespace DataType

/-- A text that begins with the name of a type, from behind the name of the type's family on. -/
def nameRest : DataType → List Char → List Char
  | .decimal precision scale, rest =>
    '(' :: ((toString precision).toList ++ ',' :: ((toString scale).toList ++ ')' :: rest))
  | .array element, rest => '<' :: (element.name.toList ++ '>' :: rest)
  | .map key value, rest => '<' :: (key.name.toList ++ ',' :: (value.name.toList ++ '>' :: rest))
  | .struct fields, rest => '<' :: ((fieldNames fields).toList ++ '>' :: rest)
  | _, rest => rest

theorem toList_name_append (type : DataType) (rest : List Char) :
    type.name.toList ++ rest = type.family.name.toList ++ type.nameRest rest := by
  cases type with
  | decimal precision scale => simp [name, family, TypeFamily.name, nameRest, toString]
  | array element => simp [name, family, TypeFamily.name, nameRest]
  | map key value => simp [name, family, TypeFamily.name, nameRest]
  | struct fields => simp [name, family, TypeFamily.name, nameRest]
  | _ => rfl

/-- Types of one family: the same type, unless the family has parameters. -/
inductive Alike : DataType → DataType → Prop
  | plain {type} : type.nameRest = id → Alike type type
  | decimal {precision scale otherPrecision otherScale} :
    Alike (.decimal precision scale) (.decimal otherPrecision otherScale)
  | array {element otherElement} : Alike (.array element) (.array otherElement)
  | map {key value otherKey otherValue} : Alike (.map key value) (.map otherKey otherValue)
  | struct {fields otherFields} : Alike (.struct fields) (.struct otherFields)

theorem alike_of_family {type other : DataType} (same : type.family = other.family) :
    type.Alike other := by
  cases type <;> cases other <;>
    first
    | exact .plain rfl
    | constructor
    | cases same

/-- The name ends at one place, whatever stands behind it. -/
def SelfDelimiting (type : DataType) : Prop :=
  ∀ ⦃other : DataType⦄ ⦃rest otherRest : List Char⦄,
    type.name.toList ++ rest = other.name.toList ++ otherRest → type = other ∧ rest = otherRest

theorem name_ne_closing (type : DataType) (rest otherRest : List Char) :
    type.name.toList ++ rest ≠ '>' :: otherRest := by
  rw [toList_name_append]
  cases type.family <;> simp [TypeFamily.name]

/-- The names of fields behind the first one. -/
def laterNames (fields : List DataType) : List Char :=
  fields.flatMap fun field => ',' :: field.name.toList

theorem toList_fieldNames (field : DataType) (fields : List DataType) :
    (fieldNames (field :: fields)).toList = field.name.toList ++ laterNames fields := by
  induction fields generalizing field with
  | nil => simp [fieldNames, laterNames]
  | cons next fields ih => simp [fieldNames, laterNames, ih]

theorem laterNames_append_inj {fields others : List DataType} {rest otherRest : List Char}
    (delimited : ∀ field ∈ fields, field.SelfDelimiting)
    (same : laterNames fields ++ '>' :: rest = laterNames others ++ '>' :: otherRest) :
    fields = others ∧ rest = otherRest := by
  induction fields generalizing others with
  | nil =>
      cases others with
      | nil => exact ⟨rfl, (List.cons.inj same).2⟩
      | cons other others => simp [laterNames] at same
  | cons field fields ih =>
      cases others with
      | nil => simp [laterNames] at same
      | cons other others =>
          obtain ⟨own, later⟩ := List.forall_mem_cons.mp delimited
          simp only [laterNames, List.flatMap_cons, List.cons_append, List.append_assoc] at same
          obtain ⟨rfl, behind⟩ := own (List.cons.inj same).2
          obtain ⟨rfl, rfl⟩ := ih later behind
          exact ⟨rfl, rfl⟩

theorem fieldNames_append_inj {fields others : List DataType} {rest otherRest : List Char}
    (delimited : ∀ field ∈ fields, field.SelfDelimiting)
    (same : (fieldNames fields).toList ++ '>' :: rest =
      (fieldNames others).toList ++ '>' :: otherRest) :
    fields = others ∧ rest = otherRest := by
  cases fields with
  | nil =>
      cases others with
      | nil => exact ⟨rfl, (List.cons.inj same).2⟩
      | cons other others =>
          -- One list closes at once where the other begins with a name.
          rw [toList_fieldNames, List.append_assoc] at same
          exact (name_ne_closing _ _ _ same.symm).elim
  | cons field fields =>
      rw [toList_fieldNames, List.append_assoc] at same
      cases others with
      | nil => exact (name_ne_closing _ _ _ same).elim
      | cons other others =>
          rw [toList_fieldNames, List.append_assoc] at same
          obtain ⟨own, later⟩ := List.forall_mem_cons.mp delimited
          obtain ⟨rfl, behind⟩ := own same
          obtain ⟨rfl, rfl⟩ := laterNames_append_inj later behind
          exact ⟨rfl, rfl⟩

theorem selfDelimiting (type : DataType) : type.SelfDelimiting := by
  induction type using DataType.induction with
  | node type ih =>
      intro other rest otherRest same
      rw [toList_name_append, toList_name_append] at same
      obtain ⟨sameFamily, behind⟩ := TypeFamily.name_append_inj same
      -- The opening words agree; the arguments are read in turn, each one up to its own end.
      cases alike_of_family sameFamily with
      | plain ends => exact ⟨rfl, by rwa [ends] at behind⟩
      | decimal =>
          obtain ⟨samePrecision, behind⟩ := (numeral_natural _).append_inj (numeral_natural _)
            (by decide) (by decide) (by decide) (List.cons.inj behind).2
          obtain ⟨sameScale, behind⟩ := (numeral_toString _).append_inj (numeral_toString _)
            (by decide) (by decide) (by decide) behind
          exact ⟨congrArg₂ decimal (Int.ofNat.inj samePrecision) sameScale, behind⟩
      | array =>
          obtain ⟨sameElement, behind⟩ := ih _ List.mem_cons_self (List.cons.inj behind).2
          exact ⟨congrArg array sameElement, (List.cons.inj behind).2⟩
      | map =>
          obtain ⟨forKey, forValue⟩ := List.forall_mem_cons.mp ih
          obtain ⟨sameKey, behind⟩ := forKey (List.cons.inj behind).2
          obtain ⟨sameValue, behind⟩ := forValue _ List.mem_cons_self (List.cons.inj behind).2
          exact ⟨congrArg₂ map sameKey sameValue, (List.cons.inj behind).2⟩
      | struct =>
          obtain ⟨sameFields, behind⟩ := fieldNames_append_inj ih (List.cons.inj behind).2
          exact ⟨congrArg struct sameFields, behind⟩

/-- Nothing that stands behind the name of a type makes another name of it. -/
theorem eq_empty_of_name_append {type other : DataType} {rest : String}
    (same : other.name = type.name ++ rest) : rest = "" := by
  have continued : type.name.toList ++ rest.toList = other.name.toList ++ [] := by
    rw [same, String.toList_append, List.append_nil]
  exact String.toList_eq_nil_iff.mp (type.selfDelimiting continued).2

/-- No two types have the same name, and no name goes on with a comma or a closing bracket to become
another one: a list of names in brackets is read in one way only. -/
theorem name_uniquely_readable :
    Function.Injective name ∧ ∀ (type other : DataType) (rest : String),
      other.name ≠ type.name ++ "," ++ rest ∧ other.name ≠ type.name ++ ">" ++ rest := by
  constructor
  · intro type other same
    exact (type.selfDelimiting (congrArg (String.toList · ++ []) same)).1
  · intro type other rest
    constructor
    · intro same
      rw [String.append_assoc] at same
      simpa using eq_empty_of_name_append same
    · intro same
      rw [String.append_assoc] at same
      simpa using eq_empty_of_name_append same

end DataType

end GpuPlacement
