import GpuPlacement.Proofs.Dictionary
import GpuPlacement.Proofs.FloatTexts
import GpuPlacement.Settings.Flatten
/-!
Settings of nested tables. The values of a table are visited in the order in which they stand,
tables within it in their places. Each of them is the setting of the dotted names on the way to it,
a later one replaces an earlier one of the same key, and the first moment in time ends the visit.
-/
namespace GpuPlacement

/-- A value other than a table, with the names on the way to it, the outermost one first. -/
structure TomlLeaf where
  path : List String
  value : TomlValue

namespace TomlValue

def isTable : TomlValue → Bool
  | .table _ => true
  | _ => false

mutual

/-- The leaves of a value that stands at a path, in the order in which they stand. -/
def leavesAt (path : List String) : TomlValue → List TomlLeaf
  | .table entries => leavesOfEntries path entries
  | value => [⟨path, value⟩]

def leavesOfEntries (path : List String) : List (String × TomlValue) → List TomlLeaf
  | [] => []
  | (name, value) :: rest => leavesAt (path ++ [name]) value ++ leavesOfEntries path rest

end

/-- The leaves of a whole document. -/
def leaves (value : TomlValue) : List TomlLeaf :=
  value.leavesAt []

mutual

/-- The entries of a value stand in increasing key order, and so do those of the tables in it. -/
def Sorted : TomlValue → Prop
  | .table entries => entries.Pairwise (fun a b => a.1 < b.1) ∧ AllSorted entries
  | _ => True

def AllSorted : List (String × TomlValue) → Prop
  | [] => True
  | (_, value) :: rest => value.Sorted ∧ AllSorted rest

end

mutual

theorem exists_path_of_leavesAt {path : List String} {value : TomlValue} {leaf : TomlLeaf}
    (visited : leaf ∈ value.leavesAt path) : ∃ rest, leaf.path = path ++ rest := by
  cases value with
  | table entries =>
      obtain ⟨name, rest, -, below⟩ := exists_path_of_leavesOfEntries visited
      exact ⟨name :: rest, below⟩
  | _ =>
      rw [List.mem_singleton.mp visited]
      exact ⟨[], (List.append_nil _).symm⟩

theorem exists_path_of_leavesOfEntries {path : List String} {entries : List (String × TomlValue)}
    {leaf : TomlLeaf} (visited : leaf ∈ leavesOfEntries path entries) :
    ∃ name rest, name ∈ entries.map (·.1) ∧ leaf.path = path ++ name :: rest := by
  cases entries with
  | nil => cases visited
  | cons entry others =>
      rcases List.mem_append.mp visited with first | later
      · obtain ⟨rest, below⟩ := exists_path_of_leavesAt first
        exact ⟨entry.1, rest, List.mem_cons_self, by simpa using below⟩
      · obtain ⟨name, rest, among, below⟩ := exists_path_of_leavesOfEntries later
        exact ⟨name, rest, List.mem_cons_of_mem _ among, below⟩

end

mutual

/-- Where tables are sorted, the leaves are visited in the order of their paths. -/
theorem leavesAt_increasing {value : TomlValue} (sorted : value.Sorted) (path : List String) :
    (value.leavesAt path).Pairwise fun a b => a.path < b.path := by
  cases value with
  | table entries => exact leavesOfEntries_increasing sorted.1 sorted.2 path
  | _ => exact List.pairwise_singleton _ _

theorem leavesOfEntries_increasing {entries : List (String × TomlValue)}
    (sorted : entries.Pairwise fun a b => a.1 < b.1) (inner : AllSorted entries)
    (path : List String) : (leavesOfEntries path entries).Pairwise fun a b => a.path < b.path := by
  cases entries with
  | nil => exact .nil
  | cons entry others =>
      obtain ⟨above, rest⟩ := List.pairwise_cons.mp sorted
      refine List.pairwise_append.mpr ⟨leavesAt_increasing inner.1 _,
        leavesOfEntries_increasing rest inner.2 path, fun first among second later => ?_⟩
      obtain ⟨below, firstPath⟩ := exists_path_of_leavesAt among
      obtain ⟨name, laterBelow, member, laterPath⟩ := exists_path_of_leavesOfEntries later
      obtain ⟨other, found, rfl⟩ := List.mem_map.mp member
      rw [firstPath, laterPath, List.append_assoc]
      exact List.append_left_lt (List.cons_lt_cons_iff.mpr (.inl (above other found)))

end

mutual

/-- Leaves are no tables. -/
theorem isTable_of_leavesAt {path : List String} {value : TomlValue} {leaf : TomlLeaf}
    (visited : leaf ∈ value.leavesAt path) : leaf.value.isTable = false := by
  cases value with
  | table entries => exact isTable_of_leavesOfEntries visited
  | _ =>
      rw [List.mem_singleton.mp visited]
      rfl

theorem isTable_of_leavesOfEntries {path : List String} {entries : List (String × TomlValue)}
    {leaf : TomlLeaf} (visited : leaf ∈ leavesOfEntries path entries) :
    leaf.value.isTable = false := by
  cases entries with
  | nil => cases visited
  | cons entry others =>
      rcases List.mem_append.mp visited with first | later
      · exact isTable_of_leavesAt first
      · exact isTable_of_leavesOfEntries later

end

def isMoment : TomlValue → Bool
  | .moment _ => true
  | _ => false

/-- How a single value is written where `noNumber` stands for what is no number and `whole` behind
whole numbers of floating point: strings as they are, numbers with all their digits. -/
inductive ShownAs (noNumber whole : String) : TomlValue → String → Prop
  | text (value : String) : ShownAs noNumber whole (.text value) value
  | integer (value : Int) : ShownAs noNumber whole (.integer value) (toString value)
  | float {value : Binary64} {shown : String} (displayed : value.DisplayedAs noNumber whole shown) :
    ShownAs noNumber whole (.float value) shown
  | yes : ShownAs noNumber whole (.boolean true) "true"
  | no : ShownAs noNumber whole (.boolean false) "false"

/-- How an item of a list is written: whole numbers of floating point keep `.0` there, and lists and
tables in a list are written as in a document. -/
inductive ListedAs : TomlValue → String → Prop
  | single {value : TomlValue} {text : String} (shown : ShownAs "nan" ".0" value text) :
    ListedAs value text
  | moment (value : Moment) : ListedAs (.moment value) value.text
  | array (items : List TomlValue) : ListedAs (.array items) (TomlValue.array items).toText
  | table (entries : List (String × TomlValue)) :
    ListedAs (.table entries) (TomlValue.table entries).toText

/-- How a value is written as a raw setting, a list with commas between its items. Tables and
moments in time are no raw settings. -/
inductive WrittenAs : TomlValue → String → Prop
  | single {value : TomlValue} {text : String} (shown : ShownAs "NaN" "" value text) :
    WrittenAs value text
  | list {items : List TomlValue} {texts : List String} (each : List.Forall₂ ListedAs items texts) :
    WrittenAs (.array items) (",".intercalate texts)

/-- The text that a flat value gets as a setting. -/
def rawText : TomlValue → String
  | .text value => value
  | .integer value => toString value
  | .float value => value.text .report
  | .boolean value => renderBool value
  | .array items => ",".intercalate (items.map Settings.itemText)
  | value => value.toText

variable {value : TomlValue} {text : String}

theorem ShownAs.boolean {noNumber whole : String} (value : Bool) :
    ShownAs noNumber whole (.boolean value) (renderBool value) := by
  cases value with
  | true => exact .yes
  | false => exact .no

theorem displayedAs_setting_iff {word : Binary64} :
    word.DisplayedAs "NaN" "" text ↔ word.text .report = text :=
  FloatWord.displayedAs_iff .report rfl rfl rfl

theorem displayedAs_item_iff {word : Binary64} :
    word.DisplayedAs "nan" ".0" text ↔ floatText word = text := by
  have same : floatText word = word.text .settingsDocument := by
    unfold floatText
    split
    next noNumber =>
      rw [FloatWord.text, of_decide_eq_true noNumber]
      rfl
    next => rfl
  rw [same]
  exact FloatWord.displayedAs_iff .settingsDocument rfl rfl rfl

theorem listedAs_iff : value.ListedAs text ↔ text = Settings.itemText value := by
  constructor
  · rintro (shown | _ | _ | _)
    case single =>
      obtain _ | _ | displayed | _ | _ := shown
      case float => exact (displayedAs_item_iff.mp displayed).symm
      all_goals rfl
    all_goals rfl
  · rintro rfl
    cases value with
    | text value => exact .single (.text value)
    | integer value => exact .single (.integer value)
    | float value => exact .single (.float (displayedAs_item_iff.mpr rfl))
    | boolean value => exact .single (.boolean value)
    | moment value => exact .moment value
    | array items => exact .array items
    | table entries => exact .table entries

theorem listedAs_items_iff {items : List TomlValue} {texts : List String} :
    List.Forall₂ ListedAs items texts ↔ texts = items.map Settings.itemText := by
  induction items generalizing texts with
  | nil => rw [List.forall₂_nil_left_iff, List.map_nil]
  | cons item rest ih =>
      simp only [List.forall₂_cons_left_iff, listedAs_iff, ih, List.map_cons, exists_and_left,
        exists_eq_left]

theorem writtenAs_iff (flat : value.isTable = false) (plain : value.isMoment = false) :
    value.WrittenAs text ↔ value.rawText = text := by
  constructor
  · rintro (shown | each)
    case single =>
      obtain _ | _ | displayed | _ | _ := shown
      case float => exact displayedAs_setting_iff.mp displayed
      all_goals rfl
    case list => rw [rawText, listedAs_items_iff.mp each]
  · rintro rfl
    cases value with
    | text value => exact .single (.text value)
    | integer value => exact .single (.integer value)
    | float value => exact .single (.float (displayedAs_setting_iff.mpr rfl))
    | boolean value => exact .single (.boolean value)
    | moment value => cases plain
    | array items => exact .list (listedAs_items_iff.mpr rfl)
    | table entries => cases flat

end TomlValue

/-- Names with dots between them. Empty names in front leave no dot. -/
def dotted (path : List String) : String :=
  ".".intercalate (path.dropWhile String.isEmpty)

theorem dotted_ne_empty {path : List String} (named : path.dropWhile String.isEmpty ≠ []) :
    (dotted path).isEmpty = false := by
  have first := List.head?_dropWhile_not String.isEmpty path
  rw [dotted]
  cases kept : path.dropWhile String.isEmpty with
  | nil => exact absurd kept named
  | cons name rest =>
      rw [kept, List.head?_cons] at first
      have given : name ≠ "" := fun blank => by simp [blank] at first
      rw [← Bool.not_eq_true, String.isEmpty_iff]
      cases rest with
      | nil => rwa [String.intercalate_singleton]
      | cons second rest =>
          rw [String.intercalate_cons_cons, String.append_assoc, String.append_eq_empty_iff]
          exact fun both => given both.1

/-- A name below a path is joined to the dotted text of the path. -/
theorem dotted_concat (path : List String) (name : String) :
    dotted (path ++ [name]) = Settings.joinKey (dotted path) name := by
  by_cases named : path.dropWhile String.isEmpty = []
  · have blank : dotted path = "" := by rw [dotted, named, String.intercalate_nil]
    rw [blank, dotted, List.dropWhile_append, named]
    by_cases empty : name.isEmpty = true
    · rw [String.isEmpty_iff.mp empty]
      rfl
    · simp [List.dropWhile_cons_of_neg empty, Settings.joinKey]
  · have given : ¬ (path.dropWhile String.isEmpty).isEmpty = true := by
      rwa [List.isEmpty_iff]
    rw [Settings.joinKey, dotted_ne_empty named, dotted, List.dropWhile_append, if_neg given,
      String.intercalate_append_of_ne_nil named (List.cons_ne_nil _ _),
      String.intercalate_singleton]
    rfl

namespace TomlLeaf

def key (leaf : TomlLeaf) : String :=
  dotted leaf.path

/-- The setting that the leaf stands for. -/
def setting (leaf : TomlLeaf) : String × String :=
  (leaf.key, leaf.value.rawText)

def fault? (leaf : TomlLeaf) : Option PlacementError :=
  match leaf.value with
  | .moment moment => some (.settingMalformed leaf.key moment.text "scalar or list")
  | _ => none

theorem fault?_eq_none_iff {leaf : TomlLeaf} :
    leaf.fault? = none ↔ leaf.value.isMoment = false := by
  obtain ⟨path, value⟩ := leaf
  cases value <;> simp [fault?, TomlValue.isMoment]

theorem fault?_eq_some_iff {leaf : TomlLeaf} {error : PlacementError} :
    leaf.fault? = some error ↔ ∃ moment, leaf.value = .moment moment ∧
      error = .settingMalformed leaf.key moment.text "scalar or list" := by
  obtain ⟨path, value⟩ := leaf
  cases value <;> simp [fault?, eq_comm]

end TomlLeaf

namespace Settings

/-- Settings with those of some leaves on top, or the error of the first leaf that has none. -/
def addLeaves (settings : Settings) (leaves : List TomlLeaf) : Except PlacementError Settings :=
  match leaves.findSome? TomlLeaf.fault? with
  | some error => .error error
  | none => .ok (settings.insertAll (leaves.map TomlLeaf.setting))

theorem addLeaves_append (settings : Settings) (first second : List TomlLeaf) :
    addLeaves settings (first ++ second) =
      match addLeaves settings first with
      | .ok settings => addLeaves settings second
      | .error error => .error error := by
  unfold addLeaves
  rw [List.findSome?_append]
  cases first.findSome? TomlLeaf.fault? with
  | some error => rfl
  | none =>
      cases second.findSome? TomlLeaf.fault? with
      | some error => rfl
      | none => simp [Dict.insertAll]

mutual

theorem addValue_eq (path : List String) (settings : Settings) (value : TomlValue) :
    addValue (dotted path) settings value = addLeaves settings (value.leavesAt path) := by
  cases value with
  | table entries => exact addEntries_eq path settings entries
  | _ => rfl

theorem addEntries_eq (path : List String) (settings : Settings)
    (entries : List (String × TomlValue)) :
    addEntries (dotted path) settings entries =
      addLeaves settings (TomlValue.leavesOfEntries path entries) := by
  cases entries with
  | nil => rfl
  | cons entry rest =>
      obtain ⟨name, value⟩ := entry
      rw [addEntries, ← dotted_concat, addValue_eq, TomlValue.leavesOfEntries, addLeaves_append]
      cases addLeaves settings (value.leavesAt (path ++ [name])) with
      | error error => rfl
      | ok settings => exact addEntries_eq path settings rest

end

theorem flatten_eq (value : TomlValue) : flatten value = addLeaves .empty value.leaves :=
  addValue_eq [] .empty value

variable {settings : Settings} {leaves : List TomlLeaf}

theorem addLeaves_eq_ok_iff {result : Settings} :
    addLeaves settings leaves = .ok result ↔
      (∀ leaf ∈ leaves, leaf.value.isMoment = false) ∧
        result = settings.insertAll (leaves.map TomlLeaf.setting) := by
  simp only [← TomlLeaf.fault?_eq_none_iff, ← List.findSome?_eq_none_iff]
  unfold addLeaves
  cases leaves.findSome? TomlLeaf.fault? with
  | none => simp [eq_comm]
  | some error => simp

theorem addLeaves_eq_error_iff {error : PlacementError} :
    addLeaves settings leaves = .error error ↔ ∃ before leaf after moment,
      leaves = before ++ leaf :: after ∧ (∀ earlier ∈ before, earlier.value.isMoment = false) ∧
        leaf.value = .moment moment ∧
        error = .settingMalformed leaf.key moment.text "scalar or list" := by
  have first : addLeaves settings leaves = .error error ↔
      leaves.findSome? TomlLeaf.fault? = some error := by
    unfold addLeaves
    cases leaves.findSome? TomlLeaf.fault? <;> simp
  rw [first, List.findSome?_eq_some_iff]
  simp only [TomlLeaf.fault?_eq_none_iff, TomlLeaf.fault?_eq_some_iff]
  constructor
  · rintro ⟨before, leaf, after, listed, ⟨moment, same, told⟩, earlier⟩
    exact ⟨before, leaf, after, moment, listed, earlier, same, told⟩
  · rintro ⟨before, leaf, after, moment, listed, earlier, same, told⟩
    exact ⟨before, leaf, after, listed, ⟨moment, same, told⟩, earlier⟩

/-- The last leaf of a key gives its value. -/
theorem get?_settings_iff {key text : String} :
    (Dict.ofList (leaves.map TomlLeaf.setting)).get? key = some text ↔ ∃ before leaf after,
      leaves = before ++ leaf :: after ∧ leaf.key = key ∧ leaf.value.rawText = text ∧
        ∀ later ∈ after, later.key ≠ key := by
  simp only [Dict.get?_ofList_eq_some_iff, List.map_eq_append_iff, List.map_eq_cons_iff]
  constructor
  · rintro ⟨_, _, ⟨before, _, rfl, rfl, leaf, after, rfl, same, rfl⟩, others⟩
    obtain ⟨rfl, rfl⟩ := Prod.mk.inj same
    exact ⟨before, leaf, after, rfl, rfl, rfl,
      fun later member => others _ (List.mem_map_of_mem member)⟩
  · rintro ⟨before, leaf, after, rfl, rfl, rfl, others⟩
    exact ⟨_, _, ⟨before, _, rfl, rfl, leaf, after, rfl, rfl, rfl⟩, List.forall_mem_map.mpr others⟩

/-- A flattened document holds, for the dotted path of every leaf and no other key, the last leaf
that is visited under that key, as it is written: strings unchanged, lists as their items with
commas between them. Tables with sorted keys are visited in the order of the paths. There is no such
document just when some leaf is a moment in time, and the first one of them is the error. -/
theorem flatten_visits (value : TomlValue) :
    (value.Sorted → value.leaves.Pairwise fun a b => a.path < b.path) ∧
    ((∃ settings, flatten value = .ok settings) ↔
      ∀ leaf ∈ value.leaves, leaf.value.isMoment = false) ∧
    (∀ settings, flatten value = .ok settings →
      (∀ key, settings.contains key = true ↔ ∃ leaf ∈ value.leaves, leaf.key = key) ∧
      ∀ key text, settings.get? key = some text ↔ ∃ before leaf after,
        value.leaves = before ++ leaf :: after ∧ leaf.key = key ∧ leaf.value.WrittenAs text ∧
          ∀ later ∈ after, later.key ≠ key) ∧
    ∀ error, flatten value = .error error ↔ ∃ before leaf after moment,
      value.leaves = before ++ leaf :: after ∧
        (∀ earlier ∈ before, earlier.value.isMoment = false) ∧ leaf.value = .moment moment ∧
        error = .settingMalformed leaf.key moment.text "scalar or list" := by
  simp only [flatten_eq, addLeaves_eq_ok_iff]
  refine ⟨fun sorted => TomlValue.leavesAt_increasing sorted [], ?success, ?content, ?failure⟩
  case success => exact ⟨fun ⟨_, plain, _⟩ => plain, fun plain => ⟨_, plain, rfl⟩⟩
  case content =>
    rintro settings ⟨plain, rfl⟩
    constructor
    · intro key
      rw [← Dict.ofList, Dict.contains_ofList_iff, List.map_map, List.mem_map]
      rfl
    · intro key text
      refine get?_settings_iff.trans (exists₃_congr fun before leaf after => ?_)
      refine and_congr_right fun listed => and_congr_right fun _ => and_congr_left' ?_
      have member : leaf ∈ value.leaves :=
        listed ▸ List.mem_append_right before List.mem_cons_self
      have flat : leaf.value.isTable = false := TomlValue.isTable_of_leavesAt member
      exact (TomlValue.writtenAs_iff flat (plain leaf member)).symm
  case failure => exact fun error => addLeaves_eq_error_iff

example :
    let quoted := ("accel.sql.explain", TomlValue.text "ALL")
    let nested := ("accel", TomlValue.table [("sql", .table [("explain", .text "NONE")])])
    flatten (.table [nested, quoted]) = .ok (Dict.empty.insert "accel.sql.explain" "ALL") := by
  decide +kernel

end Settings

end GpuPlacement
