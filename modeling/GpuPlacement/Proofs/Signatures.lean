import GpuPlacement.DataType.Signature
/-!
What signatures say about nested types. A type is supported when each of its nodes is, and the
reason against a type is the first complaint about a node in pre-order, behind the names of the
types around that node. Union and removal of families act on the nodes one by one.
-/
namespace GpuPlacement

theorem TypeFamily.mem_all (family : TypeFamily) : family ∈ all := by
  cases family <;> decide

namespace DataType

/-- The types directly within a type. -/
def inner : DataType → List DataType
  | .array element => [element]
  | .map key value => [key, value]
  | .struct fields => fields
  | _ => []

@[elab_as_elim]
theorem induction {motive : DataType → Prop}
    (node : ∀ type, (∀ part ∈ type.inner, motive part) → motive type) (type : DataType) :
    motive type := by
  induction type using DataType.rec (motive_2 := fun types => ∀ part ∈ types, motive part) with
  | array element ih => exact node _ (List.forall_mem_singleton.mpr ih)
  | map key value first second =>
      exact node _ (List.forall_mem_cons.mpr ⟨first, List.forall_mem_singleton.mpr second⟩)
  | struct fields ih => exact node _ ih
  | nil part member => cases member
  | cons field rest head tail part member =>
      rcases List.mem_cons.mp member with rfl | later
      · exact head
      · exact tail _ later
  | _ => exact node _ (List.forall_mem_nil _)

end DataType

/-- A search through items that each search through parts of their own. -/
theorem findSome?_flatMap {α β γ : Type} {items : List α} {parts : α → List β} {f : α → Option γ}
    {g : β → Option γ} (same : ∀ item ∈ items, f item = (parts item).findSome? g) :
    items.findSome? f = (items.flatMap parts).findSome? g := by
  induction items with
  | nil => rfl
  | cons item rest ih =>
      obtain ⟨first, later⟩ := List.forall_mem_cons.mp same
      rw [List.flatMap_cons, List.findSome?_append, List.findSome?_cons, first, ih later]
      cases (parts item).findSome? g <;> rfl

/-- A type at its place within another one. -/
structure TypeNode where
  /-- The types around the node, the outermost one first. -/
  around : List DataType
  type : DataType

namespace TypeNode

/-- The node as it stands within one more type. -/
def within (outer : DataType) (node : TypeNode) : TypeNode :=
  { node with around := outer :: node.around }

/-- A complaint about the node, behind the names of the types around it. -/
def reason (node : TypeNode) (complaint : String) : String :=
  node.around.foldr (fun outer inner => s!"{outer.name} child {inner}") complaint

end TypeNode

namespace DataType

mutual

/-- The nodes of a type in pre-order: the type itself, then those of the types within it. -/
def nodes : DataType → List TypeNode
  | .array element => ⟨[], .array element⟩ :: (nodes element).map (.within (.array element))
  | .map key value =>
    ⟨[], .map key value⟩ :: (nodes key ++ nodes value).map (.within (.map key value))
  | .struct fields => ⟨[], .struct fields⟩ :: (nodesOfAll fields).map (.within (.struct fields))
  | type => [⟨[], type⟩]

def nodesOfAll : List DataType → List TypeNode
  | [] => []
  | field :: rest => nodes field ++ nodesOfAll rest

end

theorem nodesOfAll_eq_flatMap (types : List DataType) : nodesOfAll types = types.flatMap nodes := by
  induction types with
  | nil => rfl
  | cons field rest ih => rw [nodesOfAll, ih, List.flatMap_cons]

theorem nodes_eq (type : DataType) :
    type.nodes = ⟨[], type⟩ :: (type.inner.flatMap nodes).map (.within type) := by
  cases type with
  | array element => simp [nodes, inner]
  | map key value => simp [nodes, inner]
  | struct fields => rw [nodes, inner, nodesOfAll_eq_flatMap]
  | _ => rfl

end DataType

namespace TypeSignature

/-- What a signature requires of a node alone, whatever is within it. -/
structure Admits (signature : TypeSignature) (type : DataType) : Prop where
  family : signature.has type.family = true
  precision : ∀ precision scale, type = .decimal precision scale → precision ≤ 18

/-- The complaint about a node alone. -/
def complaint? (signature : TypeSignature) (type : DataType) : Option String :=
  if signature.has type.family then
    match type with
    | .decimal precision scale =>
      if 18 < precision then
        some ((DataType.decimal precision scale).name
          ++ " exceeds the maximum supported decimal precision of 18")
      else .none
    | _ => .none
  else some s!"{type.name} is not supported"

variable {signature other : TypeSignature} {type : DataType}

theorem complaint?_eq_none_iff : signature.complaint? type = .none ↔ signature.Admits type := by
  unfold complaint?
  by_cases has : signature.has type.family = true
  · rw [if_pos has]
    cases type with
    | decimal precision scale =>
        by_cases wide : 18 < precision
        · simp only [if_pos wide]
          refine iff_of_false nofun fun admits => ?_
          exact Nat.not_le.mpr wide (admits.precision precision scale rfl)
        · simp only [if_neg wide, true_iff]
          refine ⟨has, fun precision scale same => ?_⟩
          cases same
          exact Nat.not_lt.mp wide
    | _ => exact iff_of_true rfl ⟨has, nofun⟩
  · rw [if_neg has]
    exact iff_of_false nofun fun admits => has admits.family

theorem firstRejection?_eq_findSome? (types : List DataType) :
    signature.firstRejection? types = types.findSome? signature.rejection? := by
  induction types with
  | nil => rfl
  | cons field rest ih =>
      rw [firstRejection?, ih, List.findSome?_cons]
      cases signature.rejection? field <;> rfl

/-- A type is rejected for itself, or else for the first type directly within it that is. -/
theorem rejection?_eq (signature : TypeSignature) (type : DataType) :
    signature.rejection? type = (signature.complaint? type).or
      ((type.inner.findSome? signature.rejection?).map (s!"{type.name} child {·}")) := by
  unfold rejection? complaint?
  by_cases has : signature.has type.family = true
  · rw [if_pos has, if_pos has]
    cases type with
    | array element =>
        dsimp only [DataType.inner]
        rw [List.findSome?_singleton]
        rfl
    | map key value =>
        dsimp only [DataType.inner]
        rw [List.findSome?_cons, List.findSome?_singleton]
        cases signature.rejection? key <;> rfl
    | struct fields =>
        dsimp only [DataType.inner]
        rw [firstRejection?_eq_findSome?]
        rfl
    | decimal precision scale => exact (Option.or_none ..).symm
    | _ => rfl
  · rw [if_neg has, if_neg has]
    rfl

/-- The reason against a type is the first complaint about one of its nodes. -/
theorem rejection?_eq_findSome? (signature : TypeSignature) (type : DataType) :
    signature.rejection? type = type.nodes.findSome? fun node =>
      (signature.complaint? node.type).map node.reason := by
  induction type using DataType.induction with
  | node type ih =>
      have own : (signature.complaint? type).map (TypeNode.reason ⟨[], type⟩) =
          signature.complaint? type := Option.map_id'
      -- The name goes in front of each reason within, as it joins what is around each node within.
      have behind : (Option.map (s!"{type.name} child {·}") ∘ fun node : TypeNode =>
            (signature.complaint? node.type).map node.reason) =
          (fun node => (signature.complaint? node.type).map node.reason) ∘
            TypeNode.within type := by
        funext node
        exact Option.map_map ..
      rw [rejection?_eq, findSome?_flatMap ih, List.map_findSome?, behind, DataType.nodes_eq,
        List.findSome?_cons, own, List.findSome?_map]
      cases signature.complaint? type <;> rfl

theorem supports_iff_admits :
    signature.supports type = true ↔ ∀ node ∈ type.nodes, signature.Admits node.type := by
  rw [supports, Option.isNone_iff_eq_none, rejection?_eq_findSome?, List.findSome?_eq_none_iff]
  simp only [Option.map_eq_none_iff, complaint?_eq_none_iff]

theorem rejection?_eq_some_iff {reason : String} :
    signature.rejection? type = some reason ↔ ∃ before node after, ∃ complaint,
      type.nodes = before ++ node :: after ∧ (∀ earlier ∈ before, signature.Admits earlier.type) ∧
        signature.complaint? node.type = some complaint ∧ reason = node.reason complaint := by
  rw [rejection?_eq_findSome?, List.findSome?_eq_some_iff]
  simp only [Option.map_eq_none_iff, complaint?_eq_none_iff, Option.map_eq_some_iff]
  constructor
  · rintro ⟨before, node, after, split, ⟨complaint, own, rfl⟩, earlier⟩
    exact ⟨before, node, after, complaint, split, earlier, own, rfl⟩
  · rintro ⟨before, node, after, complaint, split, earlier, own, rfl⟩
    exact ⟨before, node, after, split, ⟨complaint, own, rfl⟩, earlier⟩

namespace Admits

theorem mono (h : ∀ family, signature.has family = true → other.has family = true)
    (admits : signature.Admits type) : other.Admits type :=
  ⟨h _ admits.family, admits.precision⟩

theorem without_iff : (signature.without other).Admits type ↔
    signature.Admits type ∧ other.has type.family = false := by
  have left : (signature.without other).has type.family = true ↔
      signature.has type.family = true ∧ other.has type.family = false := by
    simp [without]
  constructor
  · intro admits
    obtain ⟨has, lacks⟩ := left.mp admits.family
    exact ⟨⟨has, admits.precision⟩, lacks⟩
  · rintro ⟨admits, lacks⟩
    exact ⟨left.mpr ⟨admits.family, lacks⟩, admits.precision⟩

end Admits

theorem supports_mono (h : ∀ family, signature.has family = true → other.has family = true)
    (supported : signature.supports type = true) : other.supports type = true := by
  rw [supports_iff_admits] at supported ⊢
  intro node member
  exact (supported node member).mono h

theorem has_union_left (signature other : TypeSignature) {family : TypeFamily}
    (has : signature.has family = true) : (signature ∪ other).has family = true :=
  Bool.or_eq_true_iff.mpr (.inl has)

theorem has_union_right (signature other : TypeSignature) {family : TypeFamily}
    (has : other.has family = true) : (signature ∪ other).has family = true :=
  Bool.or_eq_true_iff.mpr (.inr has)

/-- A signature supports a type just when it has the families of all its nodes and no decimal among
them is too wide. Otherwise the reason names the types around the first node, in pre-order, that
is at fault, and what is wrong with it. So a union supports what either side supports, and removing
families takes away exactly the types that have a node of one of them. -/
theorem supports_nodewise (signature : TypeSignature) (type : DataType) :
    (signature.supports type = true ↔ ∀ node ∈ type.nodes,
      signature.has node.type.family = true ∧
        ∀ precision scale, node.type = .decimal precision scale → precision ≤ 18) ∧
    (∀ reason, signature.rejection? type = some reason ↔ ∃ before node after, ∃ complaint,
      type.nodes = before ++ node :: after ∧ (∀ earlier ∈ before, signature.Admits earlier.type) ∧
        signature.complaint? node.type = some complaint ∧ reason = node.reason complaint) ∧
    (∀ other : TypeSignature, signature.supports type = true →
      (signature ∪ other).supports type = true ∧ (other ∪ signature).supports type = true) ∧
    ∀ other : TypeSignature, (signature.without other).supports type = true ↔
      signature.supports type = true ∧ ∀ node ∈ type.nodes, other.has node.type.family = false := by
  refine ⟨?_, fun reason => rejection?_eq_some_iff, ?_, ?_⟩
  · rw [supports_iff_admits]
    constructor
    · intro admitted node member
      exact ⟨(admitted node member).family, (admitted node member).precision⟩
    · intro admitted node member
      exact ⟨(admitted node member).1, (admitted node member).2⟩
  · intro other supported
    exact ⟨supports_mono (fun _ => has_union_left signature other) supported,
      supports_mono (fun _ => has_union_right other signature) supported⟩
  · intro other
    simp only [supports_iff_admits, Admits.without_iff, forall_and]

example : (common ∪ nested).rejection? (.struct [.int, .array (.map .date .binary), .binary]) =
    some ("struct<int,array<map<date,binary>>,binary> child array<map<date,binary>> child "
      ++ "map<date,binary> child binary is not supported") := by
  decide +kernel

end TypeSignature

end GpuPlacement
