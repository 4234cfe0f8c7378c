import Mathlib.Data.List.Perm.Basic
import GpuPlacement.Json.Decode
import GpuPlacement.Proofs.Dictionary
import GpuPlacement.Proofs.FloatWords
import GpuPlacement.Proofs.Tree
/-!
JSON values on their way from a writer to a reader. Members of an object may come in another order,
numbers may come in another precision, and data that are no numbers come as `null`. A decoder reads
a value when it finds it in all that the JSON value may come as, and the decoders of lists,
dictionaries and records read what the decoders of their parts read.
-/
namespace GpuPlacement

namespace JsonNumber

def isFinite : JsonNumber → Bool
  | .integer _ => true
  | .single word => word.datum.isFinite
  | .double word => word.datum.isFinite

/-- What a written number may come as. Readers hold numbers in double precision: a single precision
word comes as the word of the same number, or, through a text, as one that rounds to it. -/
inductive Carried : JsonNumber → JsonNumber → Prop
  | same (number : JsonNumber) : Carried number number
  | widened (word : Binary32) : Carried (.single word) (.double (word.convert .double))
  | rounded {word : Binary32} {wide : Binary64} (near : wide.convert .single = word) :
    Carried (.single word) (.double wide)

end JsonNumber

namespace Json

/-- What a written value may come as. -/
inductive Carried : Json → Json → Prop
  | null : Carried .null .null
  | bool (value : Bool) : Carried (.bool value) (.bool value)
  | text (value : String) : Carried (.text value) (.text value)
  | number {written read : JsonNumber} (finite : written.isFinite = true)
    (carried : written.Carried read) : Carried (.number written) (.number read)
  | nothing {written : JsonNumber} (infinite : written.isFinite = false) :
    Carried (.number written) .null
  | array {items others : List Json} (length : items.length = others.length)
    (each : ∀ {item other}, (item, other) ∈ items.zip others → Carried item other) :
    Carried (.array items) (.array others)
  | object {members others found : List (String × Json)}
    (length : members.length = others.length)
    (names : ∀ {member other}, (member, other) ∈ members.zip others → member.1 = other.1)
    (values : ∀ {member other}, (member, other) ∈ members.zip others → Carried member.2 other.2)
    (order : found.Perm others) : Carried (.object members) (.object found)
  | undecodable : Carried .undecodable .undecodable

/-- A member comes under its own name. -/
def MemberCarried (member other : String × Json) : Prop :=
  member.1 = other.1 ∧ member.2.Carried other.2

theorem Carried.items {items : List Json} {json : Json} (carried : Carried (.array items) json) :
    ∃ others, json = .array others ∧ List.Forall₂ Carried items others := by
  cases carried with
  | array length each => exact ⟨_, rfl, List.forall₂_iff_zip.mpr ⟨length, each⟩⟩

theorem Carried.members {members : List (String × Json)} {json : Json}
    (carried : Carried (.object members) json) :
    ∃ found others, json = .object found ∧ found.Perm others ∧
      List.Forall₂ MemberCarried members others := by
  cases carried with
  | object length names values order =>
      exact ⟨_, _, rfl, order, List.forall₂_iff_zip.mpr
        ⟨length, fun among => ⟨names among, values among⟩⟩⟩

/-- An object of one member comes as one of its kind. -/
theorem Carried.alternative {name : String} {content json : Json}
    (carried : Carried (.object [(name, content)]) json) :
    ∃ other, json = .object [(name, other)] ∧ content.Carried other := by
  obtain ⟨found, others, rfl, order, pairs⟩ := carried.members
  cases pairs with
  | cons first rest =>
      obtain ⟨rfl, inner⟩ := first
      cases rest
      rw [List.perm_singleton.mp order]
      exact ⟨_, rfl, inner⟩

@[elab_as_elim]
theorem induction {motive : Json → Prop} (null : motive .null)
    (bool : ∀ value, motive (.bool value)) (number : ∀ value, motive (.number value))
    (text : ∀ value, motive (.text value))
    (array : ∀ items, (∀ item ∈ items, motive item) → motive (.array items))
    (object : ∀ members, (∀ member ∈ members, motive member.2) → motive (.object members))
    (undecodable : motive .undecodable) (json : Json) : motive json :=
  Json.rec (motive_1 := motive) (motive_2 := fun items => ∀ item ∈ items, motive item)
    (motive_3 := fun members => ∀ member ∈ members, motive member.2)
    (motive_4 := fun member => motive member.2) null bool number text array object undecodable
    (List.forall_mem_nil _) (fun _ _ head rest => List.forall_mem_cons.mpr ⟨head, rest⟩)
    (List.forall_mem_nil _) (fun _ _ head rest => List.forall_mem_cons.mpr ⟨head, rest⟩)
    (fun _ _ value => value) json

mutual

/-- How many containers of a value lie one within the other. -/
def depth : Json → Nat
  | .array items => depthOfItems items + 1
  | .object members => depthOfMembers members + 1
  | _ => 0

def depthOfItems : List Json → Nat
  | [] => 0
  | item :: rest => max item.depth (depthOfItems rest)

def depthOfMembers : List (String × Json) → Nat
  | [] => 0
  | (_, value) :: rest => max value.depth (depthOfMembers rest)

end

theorem depth_array_le_iff {items : List Json} {nesting : Nat} :
    (array items).depth ≤ nesting + 1 ↔ ∀ item ∈ items, item.depth ≤ nesting := by
  rw [depth, Nat.add_le_add_iff_right]
  induction items with
  | nil => simp [depthOfItems]
  | cons item rest ih => rw [depthOfItems, Nat.max_le, ih, List.forall_mem_cons]

theorem depth_object_le_iff {members : List (String × Json)} {nesting : Nat} :
    (object members).depth ≤ nesting + 1 ↔ ∀ member ∈ members, member.2.depth ≤ nesting := by
  rw [depth, Nat.add_le_add_iff_right]
  induction members with
  | nil => simp [depthOfMembers]
  | cons member rest ih =>
      obtain ⟨name, value⟩ := member
      rw [depthOfMembers, Nat.max_le, ih, List.forall_mem_cons]

mutual

/-- The value as a reader holds it that takes no text for it. -/
def held : Json → Json
  | .number (.single word) =>
    if word.datum.isFinite then .number (.double (word.convert .double)) else .null
  | .number (.double word) => if word.datum.isFinite then .number (.double word) else .null
  | .array items => .array (heldItems items)
  | .object members => .object (heldMembers members)
  | json => json

def heldItems : List Json → List Json
  | [] => []
  | item :: rest => item.held :: heldItems rest

def heldMembers : List (String × Json) → List (String × Json)
  | [] => []
  | (name, value) :: rest => (name, value.held) :: heldMembers rest

end

theorem heldItems_eq_map (items : List Json) : heldItems items = items.map held :=
  eq_map_of_cons rfl (fun _ _ => rfl) items

theorem heldMembers_eq_map (members : List (String × Json)) :
    heldMembers members = members.map fun member => (member.1, member.2.held) :=
  eq_map_of_cons rfl (fun _ _ => rfl) members

theorem carried_held (json : Json) : json.Carried json.held := by
  induction json using Json.induction with
  | null => exact .null
  | bool value => exact .bool value
  | text value => exact .text value
  | undecodable => exact .undecodable
  | number number =>
      cases number with
      | integer value => exact .number rfl (.same _)
      | single word =>
          rw [held]
          split
          next finite => exact .number finite (.widened word)
          next infinite => exact .nothing (Bool.not_eq_true _ ▸ infinite)
      | double word =>
          rw [held]
          split
          next finite => exact .number finite (.same _)
          next infinite => exact .nothing (Bool.not_eq_true _ ▸ infinite)
  | array items ih =>
      have pairs : List.Forall₂ Carried items (items.map held) :=
        List.forall₂_map_right_iff.mpr (List.forall₂_same.mpr ih)
      obtain ⟨length, each⟩ := List.forall₂_iff_zip.mp pairs
      rw [held, heldItems_eq_map]
      exact .array length each
  | object members ih =>
      have pairs : List.Forall₂ MemberCarried members
          (members.map fun member => (member.1, member.2.held)) :=
        List.forall₂_map_right_iff.mpr
          (List.forall₂_same.mpr fun member among => ⟨rfl, ih member among⟩)
      obtain ⟨length, each⟩ := List.forall₂_iff_zip.mp pairs
      rw [held, heldMembers_eq_map]
      exact .object length (fun among => (each among).1) (fun among => (each among).2) (.refl _)

/-- A decoder finds a value in all that a JSON value may come as, when it may open as many
containers as lie one within the other. -/
def Reads {α : Type} (decode : Nat → Json → Option α) (json : Json) (value : α) : Prop :=
  ∀ nesting carried, json.Carried carried → json.depth ≤ nesting →
    decode nesting carried = some value

section

variable {α : Type} {decode : Nat → Json → Option α} {json : Json} {value : α}

theorem reads_bool (value : Bool) : Reads (fun _ => bool?) (.bool value) value := by
  intro nesting carried came shallow
  cases came
  rfl

theorem reads_text (value : String) : Reads (fun _ => text?) (.text value) value := by
  intro nesting carried came shallow
  cases came
  rfl

theorem reads_integer {least greatest value : Int} (low : least ≤ value)
    (high : value ≤ greatest) : Reads (fun _ => intIn? least greatest) (.int value) value := by
  intro nesting carried came shallow
  cases came with
  | number finite same =>
      cases same
      exact if_pos (by simp [low, high])
  | nothing infinite => cases infinite

theorem reads_double {word : Binary64} (finite : word.datum.isFinite = true) :
    Reads (fun _ => double?) (.number (.double word)) word := by
  intro nesting carried came shallow
  cases came with
  | number _ same =>
      cases same
      rfl
  | nothing infinite => exact absurd (finite.symm.trans infinite) nofun

theorem reads_single {word : Binary32} (finite : word.datum.isFinite = true) :
    Reads (fun _ => single?) (.number (.single word)) word := by
  intro nesting carried came shallow
  cases came with
  | number _ near =>
      cases near with
      | same => rfl
      | widened => exact congrArg some (FloatWord.convert_double_single finite)
      | rounded near => exact congrArg some near
  | nothing infinite => exact absurd (finite.symm.trans infinite) nofun

theorem Reads.map {β : Type} (reads : Reads decode json value) (f : α → β) :
    Reads (fun nesting json => (decode nesting json).map f) json (f value) :=
  fun nesting carried came shallow =>
    congrArg (Option.map f) (reads nesting carried came shallow)

/-- A word is read through its integer. -/
theorem reads_ofInt {β : Type} {toInt : α → Int} {ofInt : Int → α} {least greatest : Int}
    {word : α} (make : α → β) (low : least ≤ toInt word) (high : toInt word ≤ greatest)
    (back : ofInt (toInt word) = word) :
    Reads (fun _ json => (json.intIn? least greatest).map fun value => make (ofInt value))
      (.int (toInt word)) (make word) := by
  have read := (reads_integer low high).map fun value => make (ofInt value)
  rwa [back] at read

/-- An alternative is read as its content is. -/
theorem Reads.alternative {name : String} {content : Json} {inner : Nat → Json → Option α}
    (reads : Reads inner content value)
    (opens : ∀ inside other, decode (inside + 1) (.object [(name, other)]) = inner inside other) :
    Reads decode (.object [(name, content)]) value := by
  intro nesting carried came shallow
  obtain ⟨other, rfl, arrived⟩ := came.alternative
  cases nesting with
  | zero => cases shallow
  | succ inside =>
      rw [opens]
      exact reads inside other arrived (depth_object_le_iff.mp shallow _ (.head _))

/-- A decoder that refuses `null` may be told that a value is optional. -/
theorem Reads.optional (reads : Reads decode json value)
    (refuses : ∀ nesting, decode nesting .null = none) :
    Reads (fun nesting => optional? (decode nesting)) json (some value) := by
  intro nesting carried came shallow
  have found := reads nesting carried came shallow
  cases carried with
  | null => rw [refuses] at found; cases found
  | _ => exact congrArg (Option.map some) found

theorem decodeAll?_of_forall₂ {decode : Json → Option α} {items : List Json} {values : List α}
    (each : List.Forall₂ (fun value item => decode item = some value) values items) :
    decodeAll? decode items = some values := by
  induction each with
  | nil => rfl
  | cons first _ ih =>
      rw [decodeAll?, first, ih]
      rfl

/-- An array of JSON values that are read is read as a list. -/
theorem Reads.list {encode : α → Json} {values : List α} {decodeList : Nat → Json → Option (List α)}
    (each : ∀ value ∈ values, Reads decode (encode value) value)
    (opens : ∀ nesting json, decodeList (nesting + 1) json = json.listOf? (decode nesting)) :
    Reads decodeList (.array (values.map encode)) values := by
  intro nesting carried came shallow
  obtain ⟨items, rfl, pairs⟩ := came.items
  -- The array opens one container, which its items may no longer open.
  cases nesting with
  | zero => cases shallow
  | succ inside =>
      have inner := List.forall_mem_map.mp (depth_array_le_iff.mp shallow)
      rw [opens]
      apply decodeAll?_of_forall₂
      apply forall₂_imp_of_mem (List.forall₂_map_left_iff.mp pairs)
      exact fun value among item came => each value among inside item came (inner value among)

theorem decodeMembers?_of_forall₂ {decode : Json → Option α} {members : List (String × Json)}
    {entries : List (String × α)}
    (each : List.Forall₂ (fun member entry => member.1 = entry.1 ∧ decode member.2 = some entry.2)
      members entries) (dict : Dict α) :
    decodeMembers? decode members dict = some (dict.insertAll entries) := by
  induction each generalizing dict with
  | nil => rfl
  | @cons member entry _ _ first _ ih =>
      obtain ⟨name, json⟩ := member
      obtain ⟨same, read⟩ := first
      cases same
      rw [decodeMembers?, read]
      exact ih _

/-- An object whose members are read is read as a dictionary, whatever their order. -/
theorem Reads.dict {encode : α → Json} {dict : Dict α} {decodeDict : Nat → Json → Option (Dict α)}
    (each : ∀ entry ∈ dict.entries, Reads decode (encode entry.2) entry.2)
    (opens : ∀ nesting json, decodeDict (nesting + 1) json = json.dictOf? (decode nesting)) :
    Reads decodeDict (.object (dict.entries.map fun entry => (entry.1, encode entry.2))) dict := by
  intro nesting carried came shallow
  obtain ⟨found, others, rfl, order, pairs⟩ := came.members
  cases nesting with
  | zero => cases shallow
  | succ inside =>
      have inner := List.forall_mem_map.mp (depth_object_le_iff.mp shallow)
      have decoded : List.Forall₂
          (fun member entry => member.1 = entry.1 ∧ decode inside member.2 = some entry.2)
          others dict.entries := by
        apply List.Forall₂.flip
        apply forall₂_imp_of_mem (List.forall₂_map_left_iff.mp pairs)
        rintro entry among member ⟨same, came⟩
        exact ⟨same.symm, each entry among inside member.2 came (inner entry among)⟩
      -- In the order in which they arrive the entries are another list of the same dictionary.
      obtain ⟨entries, decoded, same⟩ := List.perm_comp_forall₂ order decoded
      rw [opens, dictOf?, decodeMembers?_of_forall₂ decoded, ← Dict.ofList,
        Dict.ofList_of_perm same]

end

namespace Fields

variable {fields : Fields} {nesting : Nat} {name : String}

/-- What the fields of a record hold for a field that is written, or left out. -/
def Hold (fields : Fields) (nesting : Nat) (name : String) : Option Json → Prop
  | some json => json.depth ≤ nesting ∧ ∃ other, fields.lookup name = some other ∧
      json.Carried other
  | none => fields.lookup name = none

theorem Hold.required? {α : Type} {decode : Nat → Json → Option α} {json : Json} {value : α}
    (held : fields.Hold nesting name (some json)) (reads : Reads decode json value) :
    fields.required? name (decode nesting) = some value := by
  obtain ⟨shallow, other, found, came⟩ := held
  rw [Fields.required?, found, Option.bind_some, reads nesting other came shallow]

theorem Hold.withDefault? {α : Type} {decode : Nat → Json → Option α} {json : Json}
    {default value : α} (held : fields.Hold nesting name (some json))
    (reads : Reads decode json value) :
    fields.withDefault? name default (decode nesting) = some value := by
  obtain ⟨shallow, other, found, came⟩ := held
  rw [Fields.withDefault?, found]
  exact reads nesting other came shallow

theorem Hold.default {α : Type} {decode : Json → Option α} {default : α}
    (held : fields.Hold nesting name none) :
    fields.withDefault? name default decode = some default := by
  have absent : fields.lookup name = none := held
  rw [Fields.withDefault?, absent]

/-- A list that is left out when it is empty. -/
theorem Hold.list {α : Type} {decodeList : Nat → Json → Option (List α)} {encode : α → Json}
    {values : List α} (held : fields.Hold nesting name (arrayUnlessEmpty (values.map encode)))
    (reads : Reads decodeList (.array (values.map encode)) values) :
    fields.withDefault? name [] (decodeList nesting) = some values := by
  cases values with
  | nil => exact held.default
  | cons value rest => exact held.withDefault? reads

/-- A value that is left out when there is none. -/
theorem Hold.optional {α : Type} {decode : Nat → Json → Option α} {encode : α → Json}
    {given : Option α} (held : fields.Hold nesting name (given.map encode))
    (reads : ∀ value, given = some value → Reads decode (encode value) value)
    (refuses : ∀ nesting, decode nesting .null = Option.none) :
    fields.withDefault? name Option.none (optional? (decode nesting)) = some given := by
  cases given with
  | none => exact held.default
  | some value => exact held.withDefault? ((reads value rfl).optional refuses)

end Fields

/-- The members of an object that are written. -/
def writtenMembers (members : List (String × Option Json)) : List (String × Json) :=
  members.filterMap fun member => member.2.map (member.1, ·)

theorem mem_writtenMembers_iff {members : List (String × Option Json)} {name : String}
    {json : Json} : (name, json) ∈ writtenMembers members ↔ (name, some json) ∈ members := by
  simp only [writtenMembers, List.mem_filterMap, Option.map_eq_some_iff, Prod.mk.injEq]
  constructor
  · rintro ⟨⟨_, _⟩, among, _, rfl, rfl, rfl⟩
    exact among
  · exact fun among => ⟨_, among, json, rfl, rfl, rfl⟩

theorem names_writtenMembers (members : List (String × Option Json)) :
    ((writtenMembers members).map (·.1)).Sublist (members.map (·.1)) := by
  induction members with
  | nil => exact .slnil
  | cons member rest ih =>
      obtain ⟨name, given⟩ := member
      cases given with
      | none => exact ih.cons name
      | some json => exact ih.cons_cons name

/-- A record keeps its fields: those that are written are found under their names, and those that
are left out are not found. -/
theorem exists_fields {members : List (String × Option Json)} {names : List String} {json : Json}
    {nesting : Nat} (named : members.map (·.1) = names) (distinct : names.Nodup)
    (came : (objectOf members).Carried json) (shallow : (objectOf members).depth ≤ nesting + 1) :
    ∃ fields, json.fields? names = some fields ∧
      ∀ member ∈ members, fields.Hold nesting member.1 member.2 := by
  obtain ⟨found, others, rfl, order, pairs⟩ := came.members
  have inner := depth_object_le_iff.mp shallow
  have listed : (found.map (·.1)).Perm ((writtenMembers members).map (·.1)) := by
    have same : List.Forall₂ Eq ((writtenMembers members).map (·.1)) (others.map (·.1)) :=
      List.forall₂_map_left_iff.mpr (List.forall₂_map_right_iff.mpr (pairs.imp fun _ _ => And.left))
    rw [List.forall₂_eq_eq_eq] at same
    exact same ▸ order.map _
  have below := named ▸ names_writtenMembers members
  have unique : (found.map (·.1)).Nodup := listed.nodup_iff.mpr (below.nodup distinct)
  have known : found.filter (fun member => names.contains member.1) = found := by
    rw [List.filter_eq_self]
    intro member among
    have := below.subset (listed.subset (List.mem_map_of_mem among))
    exact List.contains_iff_mem.mpr this
  refine ⟨found, ?_, ?_⟩
  · rw [fields?]
    simp only [known]
    exact if_pos unique
  · rintro ⟨name, given⟩ among
    cases given with
    | some json =>
        have written := mem_writtenMembers_iff.mpr among
        obtain ⟨⟨_, other⟩, arrived, rfl, carried⟩ := exists_of_forall₂ pairs.flip _ written
        refine ⟨inner _ written, other, ?_, carried⟩
        exact (Dict.mem_iff_lookup_eq_some unique).mp (order.mem_iff.mpr arrived)
    | none =>
        apply Dict.lookup_eq_none
        intro present
        obtain ⟨⟨_, json⟩, written, rfl⟩ := List.mem_map.mp (listed.subset present)
        have keyed : (members.map (·.1)).Nodup := named ▸ distinct
        have twice := (Dict.mem_iff_lookup_eq_some keyed).mp (mem_writtenMembers_iff.mp written)
        rw [(Dict.mem_iff_lookup_eq_some keyed).mp among] at twice
        cases twice

/-- A record is read when its decoder makes the value out of the fields that the record keeps. -/
theorem Reads.record {α : Type} {decode : Nat → Json → Option α}
    {members : List (String × Option Json)} {value : α} (names : List String)
    (named : members.map (·.1) = names) (distinct : names.Nodup)
    (made : ∀ inside carried fields, carried.fields? names = some fields →
      (∀ member ∈ members, fields.Hold inside member.1 member.2) →
      decode (inside + 1) carried = some value) :
    Reads decode (objectOf members) value := by
  intro nesting carried came shallow
  cases nesting with
  | zero => cases shallow
  | succ inside =>
      obtain ⟨fields, found, held⟩ := exists_fields named distinct came shallow
      exact made inside carried fields found held

end Json

end GpuPlacement
