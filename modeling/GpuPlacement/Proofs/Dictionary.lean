import Mathlib.Data.List.Nodup
import GpuPlacement.Data.Dict
/-!
Laws of dictionaries. Look-ups determine a dictionary, so stores under different keys may change
places, and a dictionary that is made of a list with distinct keys is looked up as the list is.
-/
namespace GpuPlacement.Dict

variable {α : Type}

theorem nodup_keys {entries : List (String × α)}
    (sorted : entries.Pairwise fun a b => a.1 < b.1) : (entries.map (·.1)).Nodup := by
  rw [List.Nodup, List.pairwise_map]
  apply sorted.imp
  intro entry later below same
  exact String.lt_irrefl later.1 (same ▸ below)

theorem lookup_eq_none {entries : List (String × α)} {key : String}
    (fresh : key ∉ entries.map (·.1)) : entries.lookup key = none := by
  rw [List.lookup_eq_none_iff]
  intro entry member
  rw [bne_iff_ne]
  exact fun same => fresh (same ▸ List.mem_map_of_mem member)

theorem mem_iff_lookup_eq_some {entries : List (String × α)}
    (distinct : (entries.map (·.1)).Nodup) {key : String} {value : α} :
    (key, value) ∈ entries ↔ entries.lookup key = some value := by
  induction entries with
  | nil => simp
  | cons head rest ih =>
      obtain ⟨name, held⟩ := head
      obtain ⟨fresh, others⟩ := List.nodup_cons.mp distinct
      rw [List.lookup_cons, List.mem_cons, ih others]
      by_cases same : key = name
      · subst same
        simp [lookup_eq_none fresh, eq_comm]
      · simp [same, beq_eq_false_iff_ne.mpr same]

theorem mem_entries_iff {dict : Dict α} {key : String} {value : α} :
    (key, value) ∈ dict.entries ↔ dict.get? key = some value :=
  mem_iff_lookup_eq_some (nodup_keys dict.sorted)

/-- The order of the entries carries no information. -/
theorem ext_get? {dict other : Dict α} (h : ∀ key, dict.get? key = other.get? key) :
    dict = other := by
  have same : dict.entries = other.entries := by
    apply List.Perm.eq_of_pairwise _ dict.sorted other.sorted
    · rw [List.perm_ext_iff_of_nodup (nodup_keys dict.sorted).of_map
        (nodup_keys other.sorted).of_map]
      rintro ⟨key, value⟩
      rw [mem_entries_iff, mem_entries_iff, h]
    · intro a b _ _ below above
      exact (String.lt_irrefl _ (String.lt_trans below above)).elim
  cases dict
  cases other
  cases same
  rfl

theorem insert_comm (dict : Dict α) {key other : String} (differ : key ≠ other)
    (value otherValue : α) :
    (dict.insert key value).insert other otherValue =
      (dict.insert other otherValue).insert key value := by
  apply ext_get?
  intro wanted
  simp only [get?_insert]
  by_cases h : wanted = key
  · rw [if_pos h, if_pos h, if_neg (h ▸ differ)]
  · rw [if_neg h, if_neg h]

theorem insertAll_cons (dict : Dict α) (key : String) (value : α) (rest : List (String × α)) :
    dict.insertAll ((key, value) :: rest) = (dict.insert key value).insertAll rest := rfl

/-- A search from the end stops at the last item that gives a result. -/
theorem findSome?_reverse_eq_some_iff {β γ : Type} {items : List β} {f : β → Option γ}
    {result : γ} : items.reverse.findSome? f = some result ↔ ∃ before item after,
      items = before ++ item :: after ∧ f item = some result ∧ ∀ later ∈ after, f later = none := by
  simp only [List.findSome?_eq_some_iff, List.reverse_eq_append_iff, List.reverse_cons,
    List.append_assoc, List.cons_append, List.nil_append]
  constructor
  · rintro ⟨after, item, before, listed, found, others⟩
    exact ⟨before.reverse, item, after.reverse, listed, found,
      fun later member => others later (List.mem_reverse.mp member)⟩
  · rintro ⟨before, item, after, listed, found, others⟩
    refine ⟨after.reverse, item, before.reverse, by simpa using listed, found, ?_⟩
    exact fun later member => others later (List.mem_reverse.mp member)

/-- Of several entries of one key the last one counts. -/
theorem get?_insertAll (dict : Dict α) (entries : List (String × α)) (wanted : String) :
    (dict.insertAll entries).get? wanted =
      (entries.reverse.lookup wanted).or (dict.get? wanted) := by
  induction entries generalizing dict with
  | nil => rfl
  | cons head rest ih =>
      obtain ⟨name, held⟩ := head
      rw [insertAll_cons, ih, get?_insert, List.reverse_cons, List.lookup_append, Option.or_assoc,
        List.lookup_cons]
      by_cases same : wanted = name
      · rw [if_pos same, beq_iff_eq.mpr same]
        rfl
      · rw [if_neg same, beq_eq_false_iff_ne.mpr same]
        rfl

theorem lookup_reverse {entries : List (String × α)} (distinct : (entries.map (·.1)).Nodup)
    (wanted : String) : entries.reverse.lookup wanted = entries.lookup wanted := by
  have reversed : (entries.reverse.map (·.1)).Nodup := by
    rwa [List.map_reverse, List.nodup_reverse]
  apply Option.ext
  intro value
  rw [← mem_iff_lookup_eq_some reversed, List.mem_reverse, mem_iff_lookup_eq_some distinct]

theorem get?_ofList {entries : List (String × α)} (distinct : (entries.map (·.1)).Nodup)
    (wanted : String) : (ofList entries).get? wanted = entries.lookup wanted := by
  rw [ofList, get?_insertAll, lookup_reverse distinct, get?_empty, Option.or_none]

/-- The entries of a dictionary make it up again in any order. -/
theorem ofList_of_perm {dict : Dict α} {entries : List (String × α)}
    (order : entries.Perm dict.entries) : ofList entries = dict := by
  have distinct := nodup_keys dict.sorted
  have distinct' := (order.map (·.1)).nodup_iff.mpr distinct
  apply ext_get?
  intro key
  apply Option.ext
  intro value
  rw [get?_ofList distinct', ← mem_iff_lookup_eq_some distinct', order.mem_iff, mem_entries_iff]

theorem get?_ofList_eq_some_iff {entries : List (String × α)} {wanted : String} {value : α} :
    (ofList entries).get? wanted = some value ↔ ∃ before after,
      entries = before ++ (wanted, value) :: after ∧ ∀ later ∈ after, later.1 ≠ wanted := by
  rw [ofList, get?_insertAll, get?_empty, Option.or_none, List.lookup_eq_findSome?,
    findSome?_reverse_eq_some_iff]
  simp only [beq_iff_eq, Option.ite_none_right_eq_some, Option.some_inj, ite_eq_right_iff,
    reduceCtorEq, imp_false]
  constructor
  · rintro ⟨before, ⟨_, _⟩, after, listed, ⟨rfl, rfl⟩, others⟩
    exact ⟨before, after, listed, fun later member same => others later member same.symm⟩
  · rintro ⟨before, after, listed, others⟩
    exact ⟨before, _, after, listed, ⟨rfl, rfl⟩, fun later member => (others later member).symm⟩

theorem contains_ofList_iff {entries : List (String × α)} {wanted : String} :
    (ofList entries).contains wanted = true ↔ wanted ∈ entries.map (·.1) := by
  rw [contains, ofList, get?_insertAll, get?_empty, Option.or_none, List.lookup_isSome_iff]
  simp only [List.mem_reverse, beq_iff_eq, List.mem_map, eq_comm (a := wanted)]

theorem get?_overlay (lower upper : Dict α) (wanted : String) :
    (lower.overlay upper).get? wanted = (upper.get? wanted).or (lower.get? wanted) := by
  rw [overlay, get?_insertAll, lookup_reverse (nodup_keys upper.sorted)]
  rfl

theorem mem_keys_iff {dict : Dict α} {key : String} :
    key ∈ dict.keys ↔ dict.contains key = true := by
  rw [contains, get?, List.lookup_isSome_iff, keys, List.mem_map]
  simp only [beq_iff_eq, eq_comm (a := key)]

/-- Keys are listed in increasing order, so a dictionary with the same keys lists them alike. -/
theorem keys_eq_of_mem_iff {dict : Dict α} {names : List String}
    (increasing : names.Pairwise (· < ·)) (same : ∀ key, key ∈ names ↔ dict.contains key = true) :
    dict.keys = names := by
  have sorted : dict.keys.Pairwise (· < ·) := List.pairwise_map.mpr dict.sorted
  have distinct : dict.keys.Nodup := nodup_keys dict.sorted
  apply List.Perm.eq_of_pairwise _ sorted increasing
  · rw [List.perm_ext_iff_of_nodup distinct (increasing.imp String.ne_of_lt)]
    intro key
    rw [mem_keys_iff, same]
  · intro a b _ _ below above
    exact (String.lt_irrefl _ (String.lt_trans below above)).elim

theorem contains_insert (dict : Dict α) (key : String) (value : α) (wanted : String) :
    (dict.insert key value).contains wanted = true ↔
      wanted = key ∨ dict.contains wanted = true := by
  rw [contains, get?_insert]
  by_cases same : wanted = key
  · simp [same]
  · simp [same, contains]

end GpuPlacement.Dict
