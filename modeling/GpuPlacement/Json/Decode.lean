import GpuPlacement.Json.Value
import GpuPlacement.Data.Dict
/-!
Decoding of JSON values into typed ones. Records are objects whose unknown members are skipped, or
arrays of their fields in order; alternatives are a bare name or an object with one member.
Decoders of nested types count how many containers may still open.
-/
namespace GpuPlacement.Json

/-- The containers of a document nest at most this deep where they are decoded. -/
def nestingLimit : Nat := 127

def bool? : Json → Option Bool
  | .bool value => some value
  | _ => none

def text? : Json → Option String
  | .text value => some value
  | _ => none

/-- An integer of a range. Fractions and exponents are refused even where the value is whole. -/
def intIn? (least greatest : Int) : Json → Option Int
  | .number (.integer value) =>
    if least ≤ value && value ≤ greatest then some value else none
  | _ => none

/-- A number as a double precision word, rounded to nearest. -/
def double? : Json → Option Binary64
  | .number (.integer value) => some (.ofInt value)
  | .number (.single word) => some (word.convert .double)
  | .number (.double word) => some word
  | _ => none

/-- A number as a single precision word, rounded to nearest. -/
def single? : Json → Option Binary32
  | .number (.integer value) => some (.ofInt value)
  | .number (.single word) => some word
  | .number (.double word) => some (word.convert .single)
  | _ => none

/-- An absent value is written `null`. -/
def optional? (decode : Json → Option α) : Json → Option (Option α)
  | .null => some none
  | json => (decode json).map some

def decodeAll? (decode : Json → Option α) : List Json → Option (List α)
  | [] => some []
  | item :: rest =>
    match decode item with
    | some value => (decodeAll? decode rest).map (value :: ·)
    | none => none

def listOf? (decode : Json → Option α) : Json → Option (List α)
  | .array items => decodeAll? decode items
  | _ => none

/-- Members decoded into a dictionary; the last one of a name stays. -/
def decodeMembers? (decode : Json → Option α) : List (String × Json) → Dict α → Option (Dict α)
  | [], dict => some dict
  | (name, json) :: rest, dict =>
    match decode json with
    | some value => decodeMembers? decode rest (dict.insert name value)
    | none => none

def dictOf? (decode : Json → Option α) : Json → Option (Dict α)
  | .object members => decodeMembers? decode members .empty
  | _ => none

/-- The fields of a record, looked up by name. -/
abbrev Fields := List (String × Json)

/-- The fields of a record with the given field names; a field may stand only once. -/
def fields? (names : List String) : Json → Option Fields
  | .object members =>
    let known := members.filter fun member => names.contains member.1
    if (known.map (·.1)).Nodup then some known else none
  | .array items => if items.length ≤ names.length then some (names.zip items) else none
  | _ => none

namespace Fields

def required? (fields : Fields) (name : String) (decode : Json → Option α) : Option α :=
  (fields.lookup name).bind decode

def withDefault? (fields : Fields) (name : String) (default : α) (decode : Json → Option α) :
    Option α :=
  match fields.lookup name with
  | some json => decode json
  | none => some default

end Fields

/-- An alternative and its content: a bare name has none, an object has one member. -/
def alternative? : Json → Option (String × Option Json)
  | .text name => some (name, none)
  | .object [(name, content)] => some (name, some content)
  | _ => none

end GpuPlacement.Json
