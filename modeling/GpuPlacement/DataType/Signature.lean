import GpuPlacement.DataType
/-!
Type signatures: the families of types that a device implementation accepts, and why a type is
rejected.
-/
namespace GpuPlacement

/-- The outermost shape of a type, without its parameters. -/
inductive TypeFamily where
  | null
  | boolean
  | byte
  | short
  | int
  | long
  | float
  | double
  | string
  | binary
  | date
  | timestamp
  | decimal
  | array
  | map
  | struct
  deriving DecidableEq

namespace TypeFamily

/-- Every family, in the order in which signatures are written. -/
def all : List TypeFamily :=
  [null, boolean, byte, short, int, long, float, double, string, binary, date, timestamp, decimal,
    array, map, struct]

def name : TypeFamily → String
  | null => "null"
  | boolean => "boolean"
  | byte => "tinyint"
  | short => "smallint"
  | int => "int"
  | long => "bigint"
  | float => "float"
  | double => "double"
  | string => "string"
  | binary => "binary"
  | date => "date"
  | timestamp => "timestamp"
  | decimal => "decimal"
  | array => "array"
  | map => "map"
  | struct => "struct"

end TypeFamily

def DataType.family : DataType → TypeFamily
  | .null => .null
  | .boolean => .boolean
  | .byte => .byte
  | .short => .short
  | .int => .int
  | .long => .long
  | .float => .float
  | .double => .double
  | .string => .string
  | .binary => .binary
  | .date => .date
  | .timestamp => .timestamp
  | .decimal .. => .decimal
  | .array _ => .array
  | .map .. => .map
  | .struct _ => .struct

/-- A set of families. A nested type is accepted only when its inner types are, too. -/
structure TypeSignature where
  has : TypeFamily → Bool

namespace TypeSignature

@[ext] theorem ext {signature other : TypeSignature}
    (h : ∀ family, signature.has family = other.has family) : signature = other := by
  cases signature; cases other; exact congrArg mk (funext h)

def ofList (families : List TypeFamily) : TypeSignature :=
  ⟨fun family => families.contains family⟩

/-- The families of either signature. -/
def union (signature other : TypeSignature) : TypeSignature :=
  ⟨fun family => signature.has family || other.has family⟩

/-- The families of the first signature that the second one lacks. -/
def without (signature other : TypeSignature) : TypeSignature :=
  ⟨fun family => signature.has family && !other.has family⟩

instance : Union TypeSignature := ⟨union⟩

def none : TypeSignature := ofList []

def boolean : TypeSignature := ofList [.boolean]

def string : TypeSignature := ofList [.string]

def timestamp : TypeSignature := ofList [.timestamp]

def date : TypeSignature := ofList [.date]

def integral : TypeSignature := ofList [.byte, .short, .int, .long]

def floating : TypeSignature := ofList [.float, .double]

def numeric : TypeSignature :=
  ofList [.byte, .short, .int, .long, .float, .double, .decimal]

/-- Flat types that the device supports for most operators. -/
def common : TypeSignature :=
  ofList [.null, .boolean, .byte, .short, .int, .long, .float, .double, .string, .date,
    .timestamp, .decimal]

def nested : TypeSignature := ofList [.array, .map, .struct]

mutual

/-- Why a type is rejected: the enclosing types down to the first offending one, and its own
complaint. -/
def rejection? (signature : TypeSignature) (type : DataType) : Option String :=
  if signature.has type.family then
    match type with
    | .decimal precision scale =>
      if maxDecimalPrecision < precision then
        some ((DataType.decimal precision scale).name
          ++ s!" exceeds the maximum supported decimal precision of {maxDecimalPrecision}")
      else .none
    | .array element =>
      (rejection? signature element).map fun inner => s!"{type.name} child {inner}"
    | .map key value =>
      ((rejection? signature key).or (rejection? signature value)).map fun inner =>
        s!"{type.name} child {inner}"
    | .struct fields =>
      (firstRejection? signature fields).map fun inner => s!"{type.name} child {inner}"
    | _ => .none
  else some s!"{type.name} is not supported"

def firstRejection? (signature : TypeSignature) : List DataType → Option String
  | [] => .none
  | field :: rest => (rejection? signature field).or (firstRejection? signature rest)

end

def supports (signature : TypeSignature) (type : DataType) : Bool :=
  (signature.rejection? type).isNone

def name (signature : TypeSignature) : String :=
  match TypeFamily.all.filter signature.has with
  | [] => "none"
  | families => ", ".intercalate (families.map TypeFamily.name)

end TypeSignature

end GpuPlacement
