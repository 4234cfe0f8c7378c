/-!
The order of class names in an open-addressed table: each name takes the first free slot from its
hash on, and a table that is full up to its reserve moves to one of twice the size, slot by slot.
-/
namespace GpuPlacement.SlotOrder

def mix (state word : UInt64) : UInt64 :=
  ((state <<< 5 ||| state >>> 59) ^^^ word) * 0x517cc1b727220a95

/-- Bytes as a number, the lowest one first. -/
def wordOf (bytes : List UInt8) : UInt64 :=
  bytes.foldr (fun byte word => word * 256 + byte.toUInt64) 0

/-- Mixes words of one size in, as long as the bytes fill them; gives back the bytes left over. -/
def mixWords (size : Nat) : Nat → UInt64 → List UInt8 → UInt64 × List UInt8
  | 0, state, bytes => (state, bytes)
  | count + 1, state, bytes =>
    if bytes.length < size then (state, bytes)
    else mixWords size count (mix state (wordOf (bytes.take size))) (bytes.drop size)

/-- The hash of a name: words of eight bytes, then of four, two and one, and a closing mark. -/
def hash (name : String) : UInt64 :=
  let bytes := name.toUTF8.toList
  let (state, bytes) := mixWords 8 bytes.length 0 bytes
  let (state, bytes) := mixWords 4 1 state bytes
  let (state, bytes) := mixWords 2 1 state bytes
  let (state, _) := mixWords 1 1 state bytes
  mix state 0xff

abbrev Slots := List (Option String)

/-- How many names a number of slots holds: an eighth stays free, and one slot at least. -/
def capacity (size : Nat) : Nat :=
  if size ≤ 8 then size - 1 else size / 8 * 7

def countNames (slots : Slots) : Nat :=
  (slots.filter Option.isSome).length

/-- Puts a name into the first free slot from its hash on, going round at the end. -/
def place (slots : Slots) (name : String) : Slots :=
  let start := (hash name).toNat % slots.length
  let order := (List.range slots.length).map fun step => (start + step) % slots.length
  match order.find? fun index => slots[index]? == some none with
  | some index => slots.set index (some name)
  | none => slots

def grow (slots : Slots) : Slots :=
  (slots.filterMap id).foldl place (List.replicate (max 4 (2 * slots.length)) none)

/-- Stores a name. Room for one more name is made even when the name has its slot already. -/
def store (slots : Slots) (name : String) : Slots :=
  let slots := if countNames slots < capacity slots.length then slots else grow slots
  if slots.contains (some name) then slots else place slots name

/-- The names in the order of their slots after they were stored one after the other. -/
def ofStored (names : List String) : List String :=
  (names.foldl store []).filterMap id

end GpuPlacement.SlotOrder
