/-!
Logical types of columns and expressions, their names, and the classes of types that the device
kernels distinguish.
-/
namespace GpuPlacement

/-- Widest decimal precision that the device kernels handle. -/
def maxDecimalPrecision : Nat := 18

inductive DataType where
  | null
  | boolean
  | byte
  | short
  | int
  | long
  | float
  | double
  | string
  | binary
  /-- Days since the epoch. -/
  | date
  /-- Microseconds since the epoch, aware of the session time zone. -/
  | timestamp
  | decimal (precision : Nat) (scale : Int)
  | array (element : DataType)
  | map (key value : DataType)
  | struct (fields : List DataType)
  deriving Inhabited

namespace DataType

mutual

def beq : DataType → DataType → Bool
  | .null, .null | .boolean, .boolean | .byte, .byte | .short, .short | .int, .int
  | .long, .long | .float, .float | .double, .double | .string, .string | .binary, .binary
  | .date, .date | .timestamp, .timestamp => true
  | .decimal precision scale, .decimal precision' scale' =>
    precision == precision' && scale == scale'
  | .array element, .array element' => beq element element'
  | .map key value, .map key' value' => beq key key' && beq value value'
  | .struct fields, .struct fields' => beqAll fields fields'
  | _, _ => false

def beqAll : List DataType → List DataType → Bool
  | [], [] => true
  | field :: rest, field' :: rest' => beq field field' && beqAll rest rest'
  | _, _ => false

end

mutual

theorem beq_self (type : DataType) : beq type type = true := by
  cases type with
  | array element => exact beq_self element
  | map key value => simp [beq, beq_self key, beq_self value]
  | struct fields => exact beqAll_self fields
  | _ => simp [beq]

theorem beqAll_self (types : List DataType) : beqAll types types = true := by
  cases types with
  | nil => rfl
  | cons field rest => simp [beqAll, beq_self field, beqAll_self rest]

end

mutual

theorem eq_of_beq {type other : DataType} (h : beq type other = true) : type = other := by
  cases type <;> cases other <;> simp only [beq, Bool.and_eq_true, beq_iff_eq] at h <;>
    first
    | rfl
    | exact absurd h Bool.false_ne_true
    | skip
  next => rw [h.1, h.2]
  next => rw [eq_of_beq h]
  next => rw [eq_of_beq h.1, eq_of_beq h.2]
  next => rw [eq_of_beqAll h]

theorem eq_of_beqAll {types others : List DataType} (h : beqAll types others = true) :
    types = others := by
  cases types <;> cases others <;> simp only [beqAll, Bool.and_eq_true] at h
  · rfl
  · exact absurd h Bool.false_ne_true
  · exact absurd h Bool.false_ne_true
  · rw [eq_of_beq h.1, eq_of_beqAll h.2]

end

instance : DecidableEq DataType := fun type other =>
  if h : beq type other = true then .isTrue (eq_of_beq h)
  else .isFalse fun same => h (same ▸ beq_self type)

/-- Integers of 8, 16, 32 or 64 bits. -/
def isIntegral : DataType → Bool
  | .byte | .short | .int | .long => true
  | _ => false

def isFloating : DataType → Bool
  | .float | .double => true
  | _ => false

def isNested : DataType → Bool
  | .array _ | .map .. | .struct _ => true
  | _ => false

/-- Types that the device sort kernels can order. -/
def isOrderable (type : DataType) : Bool :=
  !type.isNested

mutual

/-- Types that the device hash kernels take as grouping or join keys. -/
def isHashable : DataType → Bool
  | .map .. | .array _ => false
  | .struct fields => allHashable fields
  | _ => true

def allHashable : List DataType → Bool
  | [] => true
  | field :: rest => isHashable field && allHashable rest

end

/-- Whether values depend on the session time zone. -/
def isZoned : DataType → Bool
  | .timestamp => true
  | _ => false

/-- The least and greatest value of an integral type. -/
def integralBounds? : DataType → Option (Int × Int)
  | .byte => some (Int8.minValue.toInt, Int8.maxValue.toInt)
  | .short => some (Int16.minValue.toInt, Int16.maxValue.toInt)
  | .int => some (Int32.minValue.toInt, Int32.maxValue.toInt)
  | .long => some (Int64.minValue.toInt, Int64.maxValue.toInt)
  | _ => none

mutual

/-- The name of a type in reports, with its parameters and the names of inner types. -/
def name : DataType → String
  | .null => "null"
  | .boolean => "boolean"
  | .byte => "tinyint"
  | .short => "smallint"
  | .int => "int"
  | .long => "bigint"
  | .float => "float"
  | .double => "double"
  | .string => "string"
  | .binary => "binary"
  | .date => "date"
  | .timestamp => "timestamp"
  | .decimal precision scale => s!"decimal({precision},{scale})"
  | .array element => "array<" ++ name element ++ ">"
  | .map key value => "map<" ++ name key ++ "," ++ name value ++ ">"
  | .struct fields => "struct<" ++ fieldNames fields ++ ">"

/-- Names with commas between them. -/
def fieldNames : List DataType → String
  | [] => ""
  | [field] => name field
  | field :: rest => name field ++ "," ++ fieldNames rest

end

end DataType

end GpuPlacement
