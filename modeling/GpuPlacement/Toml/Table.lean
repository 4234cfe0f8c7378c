import GpuPlacement.Data.Dict
import GpuPlacement.Toml.Value
/-!
Tables of TOML documents while they are read. A table remembers how it came to be, since that
decides where further entries may go.
-/
namespace GpuPlacement

/-- How a table came to be. -/
inductive TomlOrigin where
  /-- By its own header, or as a value. -/
  | stated
  /-- By a header further down. -/
  | implied
  /-- By a dotted key. -/
  | dotted
  deriving DecidableEq

inductive TomlItem where
  | value (value : TomlValue)
  | table (origin : TomlOrigin) (entries : List (String × TomlItem))
  /-- The tables of repeated headers, last first. -/
  | tables (elements : List (List (String × TomlItem)))

/-- A table with its origin. -/
structure TomlTable where
  origin : TomlOrigin
  entries : List (String × TomlItem)

namespace TomlTable

def root : TomlTable := ⟨.stated, []⟩

/-- Puts an item under a key, in place of an older one. -/
def put (entries : List (String × TomlItem)) (key : String) (item : TomlItem) :
    List (String × TomlItem) :=
  match entries with
  | [] => [(key, item)]
  | (name, held) :: rest =>
    if name = key then (key, item) :: rest else (name, held) :: put rest key item

/-- Changes the table at a path. Missing tables on the way are made; headers go through every
table and into the last of repeated ones, dotted keys not into tables that were stated. -/
def changeAt (made : TomlOrigin) (change : TomlTable → Option TomlTable) :
    List String → TomlTable → Option TomlTable
  | [], table => change table
  | key :: path, table =>
    let put := fun item => some ⟨table.origin, put table.entries key item⟩
    match table.entries.lookup key with
    | none =>
      (changeAt made change path ⟨made, []⟩).bind fun inner => put (.table inner.origin inner.entries)
    | some (.value _) => none
    | some (.tables []) => none
    | some (.tables (last :: earlier)) =>
      (changeAt made change path ⟨.stated, last⟩).bind fun inner =>
        put (.tables (inner.entries :: earlier))
    | some (.table origin entries) =>
      if made = .dotted && origin = .stated then none
      else
        (changeAt made change path ⟨origin, entries⟩).bind fun inner =>
          put (.table inner.origin inner.entries)

/-- Adds an entry of a new key. A dotted key ends in a table of dotted keys, a plain one in any
other. -/
def addEntry (dotted : Bool) (key : String) (value : TomlValue) (table : TomlTable) :
    Option TomlTable :=
  if (table.origin = .dotted) != dotted then none
  else
    match table.entries.lookup key with
    | some _ => none
    | none => some ⟨table.origin, put table.entries key (.value value)⟩

/-- Adds the value of a key of one or more parts. -/
def addPath (path : List String) (value : TomlValue) (table : TomlTable) : Option TomlTable :=
  match path.getLast? with
  | some key =>
    let parents := path.dropLast
    changeAt .dotted (addEntry (!parents.isEmpty) key value) parents table
  | none => none

/-- States the table of a header; only an implied one may be there already. -/
def stateTable (key : String) (table : TomlTable) : Option TomlTable :=
  match table.entries.lookup key with
  | none => some ⟨table.origin, put table.entries key (.table .stated [])⟩
  | some (.table .implied entries) =>
    some ⟨table.origin, put table.entries key (.table .stated entries)⟩
  | some _ => none

/-- Adds one more table of a repeated header. -/
def appendTable (key : String) (table : TomlTable) : Option TomlTable :=
  match table.entries.lookup key with
  | none => some ⟨table.origin, put table.entries key (.tables [[]])⟩
  | some (.tables elements) =>
    some ⟨table.origin, put table.entries key (.tables ([] :: elements))⟩
  | some _ => none

/-- Applies a change to the table above the last part of a path. -/
def changeParent (change : String → TomlTable → Option TomlTable) (path : List String)
    (table : TomlTable) : Option TomlTable :=
  match path.getLast? with
  | some key => changeAt .implied (change key) path.dropLast table
  | none => none

end TomlTable

/-- The entry at its place among sorted ones. -/
def TomlValue.sortEntries (entries : List (String × TomlValue)) : List (String × TomlValue) :=
  (Dict.ofList entries).entries

mutual

/-- The finished value of an item. -/
def TomlItem.finish : TomlItem → TomlValue
  | .value value => value
  | .table _ entries => .table (TomlValue.sortEntries (finishEntries entries))
  | .tables elements => .array (finishTables elements).reverse

def finishEntries : List (String × TomlItem) → List (String × TomlValue)
  | [] => []
  | (key, item) :: rest => (key, item.finish) :: finishEntries rest

def finishTables : List (List (String × TomlItem)) → List TomlValue
  | [] => []
  | entries :: rest =>
    .table (TomlValue.sortEntries (finishEntries entries)) :: finishTables rest

end

end GpuPlacement
