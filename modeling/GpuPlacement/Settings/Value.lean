import GpuPlacement.Number.Decimal
import GpuPlacement.Number.Layout
import GpuPlacement.ReportMode
/-!
The types that a setting can have: how their values are read from raw text and written back.
-/
namespace GpuPlacement

class SettingValue (α : Type) where
  /-- The type's name in errors and documentation. -/
  typeName : String
  /-- Reads a raw setting; nothing when it is no value of the type. -/
  parse : String → Option α
  /-- The raw setting of a value. -/
  render : α → String

/-- The items of a text between its separators; there is always one more item than separators. -/
def splitChars (separator : Char) : List Char → List (List Char)
  | [] => [[]]
  | c :: rest =>
    if c = separator then [] :: splitChars separator rest
    else
      match splitChars separator rest with
      | item :: items => (c :: item) :: items
      | [] => [[c]]

def parseBool (raw : String) : Option Bool :=
  let word := lowerAscii (trimBlank raw)
  if word = "true" then some true else if word = "false" then some false else none

def renderBool (value : Bool) : String :=
  if value then "true" else "false"

instance : SettingValue Bool where
  typeName := "boolean"
  parse := parseBool
  render := renderBool

instance : SettingValue Int32 where
  typeName := "integer"
  parse raw :=
    (readIntegerIn? Int32.minValue.toInt Int32.maxValue.toInt (trimChars raw.toList)).map
      Int32.ofInt
  render value := toString value.toInt

instance : SettingValue Int64 where
  typeName := "long"
  parse raw :=
    (readIntegerIn? Int64.minValue.toInt Int64.maxValue.toInt (trimChars raw.toList)).map
      Int64.ofInt
  render value := toString value.toInt

instance : SettingValue Binary64 where
  typeName := "double"
  parse raw := FloatWord.read? (trimChars raw.toList)
  render value := value.text .setting

instance : SettingValue String where
  typeName := "string"
  parse raw := some raw
  render value := value

/-- The items between commas without the white space around them; blank items are left out. -/
def parseItems (raw : String) : List String :=
  (((splitChars ',' raw.toList).map trimChars).filter (!·.isEmpty)).map String.ofList

instance : SettingValue (List String) where
  typeName := "comma-separated list"
  parse raw := some (parseItems raw)
  render items := ",".intercalate items

instance : SettingValue ReportMode where
  typeName := "one of ALL, NONE, NOT_ON_GPU"
  parse := ReportMode.ofText?
  render := ReportMode.name

/-- A number of bytes. -/
structure ByteSize where
  bytes : UInt64
  deriving DecidableEq

namespace ByteSize

/-- The power of 1024 that a unit letter stands for. -/
def unitPower? : Char → Option Nat
  | 'k' => some 1
  | 'm' => some 2
  | 'g' => some 3
  | 't' => some 4
  | _ => none

/-- A byte size in lower case, last character first: an optional `b`, an optional unit, then a
numeral with white space around it. The product has to stay below `2 ^ 64`. -/
def ofReversed? (reversed : List Char) : Option ByteSize :=
  let sized :=
    match reversed with
    | 'b' :: rest => rest
    | rest => rest
  match sized with
  | [] => none
  | last :: rest =>
    let (numeral, power) :=
      match unitPower? last with
      | some power => (rest, power)
      | none => (last :: rest, 0)
    (readNatural? (trimChars numeral.reverse)).bind fun count =>
      let bytes := count * Nat.pow 1024 power
      if bytes < UInt64.size then some ⟨UInt64.ofNat bytes⟩ else none

def ofText? (raw : String) : Option ByteSize :=
  ofReversed? (lowerChars (trimChars raw.toList)).reverse

end ByteSize

instance : SettingValue ByteSize where
  typeName := "byte size"
  parse := ByteSize.ofText?
  render size := toString size.bytes.toNat

end GpuPlacement
