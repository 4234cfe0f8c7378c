/-!
Dictionaries from text to values, held as an association list in strictly increasing key order.
The order is a field, so two dictionaries with the same look-ups are the same dictionary.
-/
namespace GpuPlacement

/-- Entries with distinct keys, in increasing order of code points. -/
structure Dict (α : Type u) where
  entries : List (String × α)
  sorted : entries.Pairwise fun a b => a.1 < b.1

namespace Dict

/-- Puts an entry at its place; an entry of the same key is replaced. -/
def insertEntry (key : String) (value : α) : List (String × α) → List (String × α)
  | [] => [(key, value)]
  | entry :: rest =>
    if key < entry.1 then (key, value) :: entry :: rest
    else if entry.1 < key then entry :: insertEntry key value rest
    else (key, value) :: rest

theorem mem_insertEntry {key : String} {value : α} {entries : List (String × α)}
    {entry : String × α} (h : entry ∈ insertEntry key value entries) :
    entry = (key, value) ∨ entry ∈ entries := by
  induction entries with
  | nil => simpa [insertEntry] using h
  | cons head rest ih =>
    simp only [insertEntry] at h
    split at h
    · simpa using h
    · split at h
      · rcases List.mem_cons.1 h with rfl | h
        · simp
        · rcases ih h with h | h <;> simp [h]
      · rcases List.mem_cons.1 h with rfl | h
        · simp
        · simp [h]

theorem sorted_insertEntry (key : String) (value : α) {entries : List (String × α)}
    (h : entries.Pairwise fun a b => a.1 < b.1) :
    (insertEntry key value entries).Pairwise fun a b => a.1 < b.1 := by
  induction entries with
  | nil => simp [insertEntry]
  | cons head rest ih =>
    obtain ⟨below, tail⟩ := List.pairwise_cons.1 h
    simp only [insertEntry]
    split
    next lt =>
      refine List.pairwise_cons.2 ⟨fun entry mem => ?_, h⟩
      rcases List.mem_cons.1 mem with rfl | mem
      · exact lt
      · exact String.lt_trans lt (below entry mem)
    next notBefore =>
      split
      next lt =>
        refine List.pairwise_cons.2 ⟨fun entry mem => ?_, ih tail⟩
        rcases mem_insertEntry mem with rfl | mem
        · exact lt
        · exact below entry mem
      next notAfter =>
        have same : key = head.1 :=
          String.le_antisymm (String.not_lt.1 notAfter) (String.not_lt.1 notBefore)
        exact List.pairwise_cons.2 ⟨fun entry mem => same ▸ below entry mem, tail⟩

def empty : Dict α := ⟨[], .nil⟩

instance : EmptyCollection (Dict α) := ⟨empty⟩
instance : Inhabited (Dict α) := ⟨empty⟩

/-- The value stored under a key. -/
def get? (dict : Dict α) (key : String) : Option α :=
  dict.entries.lookup key

/-- Stores a value, replacing an older one of the same key. -/
def insert (dict : Dict α) (key : String) (value : α) : Dict α :=
  ⟨insertEntry key value dict.entries, sorted_insertEntry key value dict.sorted⟩

theorem lookup_insertEntry (key : String) (value : α) (entries : List (String × α))
    (wanted : String) :
    (insertEntry key value entries).lookup wanted =
      if wanted = key then some value else entries.lookup wanted := by
  induction entries with
  | nil =>
    by_cases h : wanted = key
    · simp [insertEntry, h]
    · simp [insertEntry, List.lookup_cons, h, beq_eq_false_iff_ne.2 h]
  | cons head rest ih =>
    obtain ⟨name, held⟩ := head
    simp only [insertEntry]
    split
    next =>
      by_cases h : wanted = key
      · simp [h]
      · simp [List.lookup_cons, h, beq_eq_false_iff_ne.2 h]
    next notBefore =>
      split
      next lt =>
        by_cases h : wanted = name
        · subst h
          have : wanted ≠ key := fun same => String.lt_irrefl key (same ▸ lt)
          simp [this]
        · simp [List.lookup_cons, beq_eq_false_iff_ne.2 h, ih]
      next notAfter =>
        have same : key = name :=
          String.le_antisymm (String.not_lt.1 notAfter) (String.not_lt.1 notBefore)
        subst same
        by_cases h : wanted = key
        · simp [h]
        · simp [List.lookup_cons, h, beq_eq_false_iff_ne.2 h]

/-- A look-up after a store finds the new value under its key and the old ones elsewhere. -/
@[simp] theorem get?_insert (dict : Dict α) (key : String) (value : α) (wanted : String) :
    (dict.insert key value).get? wanted = if wanted = key then some value else dict.get? wanted :=
  lookup_insertEntry key value dict.entries wanted

@[simp] theorem get?_empty (wanted : String) : (empty : Dict α).get? wanted = none := rfl

def contains (dict : Dict α) (key : String) : Bool :=
  (dict.get? key).isSome

def isEmpty (dict : Dict α) : Bool :=
  dict.entries.isEmpty

def size (dict : Dict α) : Nat :=
  dict.entries.length

def keys (dict : Dict α) : List String :=
  dict.entries.map (·.1)

def values (dict : Dict α) : List α :=
  dict.entries.map (·.2)

/-- Stores entries one after the other, so the last one of a key stays. -/
def insertAll (dict : Dict α) (entries : List (String × α)) : Dict α :=
  entries.foldl (fun dict entry => dict.insert entry.1 entry.2) dict

def ofList (entries : List (String × α)) : Dict α :=
  empty.insertAll entries

/-- Lays one dictionary over another: where both have a key, the upper one counts. -/
def overlay (lower upper : Dict α) : Dict α :=
  lower.insertAll upper.entries

instance [DecidableEq α] : DecidableEq (Dict α) := fun a b =>
  if h : a.entries = b.entries then
    .isTrue (by cases a; cases b; cases h; rfl)
  else
    .isFalse fun same => h (congrArg entries same)

end Dict

end GpuPlacement
