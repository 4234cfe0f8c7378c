import GpuPlacement.DataType
import GpuPlacement.Json.Decode
/-!
Types in plan documents: flat types are names, the others objects with one member.
-/
namespace GpuPlacement.DataType

def flatOfName? : String → Option DataType
  | "null" => some .null
  | "boolean" => some .boolean
  | "byte" => some .byte
  | "short" => some .short
  | "int" => some .int
  | "long" => some .long
  | "float" => some .float
  | "double" => some .double
  | "string" => some .string
  | "binary" => some .binary
  | "date" => some .date
  | "timestamp" => some .timestamp
  | _ => none

mutual

def toJson : DataType → Json
  | .null => .text "null"
  | .boolean => .text "boolean"
  | .byte => .text "byte"
  | .short => .text "short"
  | .int => .text "int"
  | .long => .text "long"
  | .float => .text "float"
  | .double => .text "double"
  | .string => .text "string"
  | .binary => .text "binary"
  | .date => .text "date"
  | .timestamp => .text "timestamp"
  | .decimal precision scale =>
    .object [("decimal", .object [("precision", .nat precision), ("scale", .int scale)])]
  | .array element => .object [("array", toJson element)]
  | .map key value => .object [("map", .array [toJson key, toJson value])]
  | .struct fields => .object [("struct", .array (toJsonAll fields))]

def toJsonAll : List DataType → List Json
  | [] => []
  | field :: rest => toJson field :: toJsonAll rest

end

def decimalOfJson? (json : Json) : Option DataType := do
  let fields ← json.fields? ["precision", "scale"]
  let precision ← fields.required? "precision" (Json.intIn? 0 255)
  let scale ← fields.required? "scale" (Json.intIn? (-128) 127)
  some (.decimal precision.toNat scale)

mutual

/-- Decodes a type while `nesting` containers may still open. A flat type may also be an object
whose member is `null`. -/
def ofJson? : Nat → Json → Option DataType
  | _, .text name => flatOfName? name
  | nesting + 1, .object [(name, content)] =>
    match name with
    | "array" => (ofJson? nesting content).map .array
    | "decimal" => if nesting = 0 then none else decimalOfJson? content
    | "map" =>
      match listOfJson? nesting content with
      | some [key, value] => some (.map key value)
      | _ => none
    | "struct" => (listOfJson? nesting content).map .struct
    | name => if content matches .null then flatOfName? name else none
  | _, _ => none

def listOfJson? : Nat → Json → Option (List DataType)
  | nesting + 1, .array items => Json.decodeAll? (ofJson? nesting) items
  | _, _ => none

end

end GpuPlacement.DataType
