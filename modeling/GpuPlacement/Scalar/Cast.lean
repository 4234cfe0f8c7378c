import GpuPlacement.Scalar
import GpuPlacement.Number.Decimal
import GpuPlacement.Text.Blank
/-!
Casts of literals. Legacy casts wrap integers, saturate floating values and turn unreadable text
into nulls; ANSI casts report these cases as errors.
-/
namespace GpuPlacement

inductive CastMode where
  | legacy
  | ansi
  deriving DecidableEq

inductive CastError where
  /-- The value does not fit the target type. -/
  | overflow (value : String) (target : DataType)
  /-- The text is no literal of the target type. -/
  | malformed (value : String) (target : DataType)
  /-- Casts between these types are left to execution. -/
  | unsupported (source target : DataType)
  deriving DecidableEq

namespace CastError

def message : CastError → String
  | .overflow value target => s!"{value} is out of range for {target.name}"
  | .malformed value target => s!"'{value}' cannot be parsed as {target.name}"
  | .unsupported source target => s!"cast from {source.name} to {target.name} is not folded"

def code : CastError → String
  | .overflow .. => "Overflow"
  | .malformed .. => "Malformed"
  | .unsupported .. => "Unsupported"

end CastError

namespace Scalar

/-- The scalar of an integral type that is congruent to an integer modulo the type's width. -/
def wrapped? (value : Int) : DataType → Option Scalar
  | .byte => some (.byte (Int8.ofInt value))
  | .short => some (.short (Int16.ofInt value))
  | .int => some (.int (Int32.ofInt value))
  | .long => some (.long (Int64.ofInt value))
  | _ => none

/-- An integer cast to an integral type. -/
def castToIntegral (value : Int) (target : DataType) (mode : CastMode) :
    Except CastError Scalar :=
  match target.integralBounds?, wrapped? value target with
  | some (least, greatest), some scalar =>
    if mode = .ansi ∧ (value < least ∨ greatest < value) then
      .error (.overflow (toString value) target)
    else .ok scalar
  | _, _ => .error (.unsupported .long target)

def castInteger (value : Int) (target : DataType) (mode : CastMode) : Except CastError Scalar :=
  match target with
  | .boolean => .ok (.boolean (value ≠ 0))
  | .float => .ok (.float (.ofInt value))
  | .double => .ok (.double (.ofInt value))
  | .string => .ok (.string (toString value))
  | target => castToIntegral value target mode

/-- A bound of an integral type as the nearest double precision word sees it. -/
def doubleBound (bound : Int) : Int :=
  ((FloatWord.ofInt bound : Binary64).datum.truncate?).getD bound

/-- A floating value without its fraction, brought into the range of 64 bit integers; a value that
is no number counts as zero. -/
def saturate : FloatDatum → Int
  | .notANumber => 0
  | .infinite negative => if negative then Int64.minValue.toInt else Int64.maxValue.toInt
  | datum => max Int64.minValue.toInt (min Int64.maxValue.toInt (datum.truncate?.getD 0))

/-- Whether a floating value, its fraction dropped, lies outside of bounds that are themselves
taken as double precision words. -/
def exceedsBounds (least greatest : Int) : FloatDatum → Bool
  | .notANumber | .infinite _ => true
  | datum =>
    let whole := datum.truncate?.getD 0
    decide (whole < doubleBound least ∨ doubleBound greatest < whole)

def castDouble (value : Binary64) (target : DataType) (mode : CastMode) :
    Except CastError Scalar :=
  match target with
  | .float => .ok (.float (value.convert .single))
  | .double => .ok (.double value)
  | target =>
    match target.integralBounds? with
    | none => .error (.unsupported .double target)
    | some (least, greatest) =>
      if mode = .ansi ∧ exceedsBounds least greatest value.datum then
        .error (.overflow (value.text .report) target)
      else castToIntegral (max least (min greatest (saturate value.datum))) target .legacy

/-- The words that denote truth values, without regard to the case of letters. -/
def truthOfWord? (word : List Char) : Option Bool :=
  let name := String.ofList (lowerChars word)
  if name ∈ ["true", "t", "yes", "y", "1"] then some true
  else if name ∈ ["false", "f", "no", "n", "0"] then some false
  else none

/-- The outcome of a text that is no literal of the target type. -/
def unreadable (text : String) (target : DataType) : CastMode → Except CastError Scalar
  | .ansi => .error (.malformed text target)
  | .legacy => .ok (.null target)

/-- A text cast to an integral type; numerals beyond 64 bits are no literals. -/
def castTextToIntegral (text : String) (target : DataType) (mode : CastMode) :
    Except CastError Scalar :=
  match readIntegerIn? Int64.minValue.toInt Int64.maxValue.toInt (trimChars text.toList) with
  | none => unreadable text target mode
  | some value =>
    match target.integralBounds? with
    | none => .error (.unsupported .string target)
    | some (least, greatest) =>
      if value < least ∨ greatest < value then
        match mode with
        | .ansi => .error (.overflow text target)
        | .legacy => .ok (.null target)
      else castToIntegral value target .legacy

def castText (text : String) (target : DataType) (mode : CastMode) : Except CastError Scalar :=
  let trimmed := trimChars text.toList
  let outcome : Option Scalar → Except CastError Scalar
    | some scalar => .ok scalar
    | none => unreadable text target mode
  match target with
  | .boolean => outcome ((truthOfWord? trimmed).map .boolean)
  | .float => outcome ((FloatWord.read? trimmed).map .float)
  | .double => outcome ((FloatWord.read? trimmed).map .double)
  | .byte | .short | .int | .long => castTextToIntegral text target mode
  | target => .error (.unsupported .string target)

/-- Casts a literal. A cast to the literal's own type changes nothing, and nulls stay nulls. -/
def cast (value : Scalar) (target : DataType) (mode : CastMode) : Except CastError Scalar :=
  if value.type = target then .ok value
  else if value.isNull then .ok (.null target)
  else
    match value with
    | .boolean truth =>
      if target.isIntegral then castToIntegral (if truth then 1 else 0) target mode
      else .error (.unsupported .boolean target)
    | .byte value => castInteger value.toInt target mode
    | .short value => castInteger value.toInt target mode
    | .int value => castInteger value.toInt target mode
    | .long value => castInteger value.toInt target mode
    | .float word =>
      if target.isIntegral || target.isFloating then castDouble (word.convert .double) target mode
      else .error (.unsupported .float target)
    | .double word =>
      if target.isIntegral || target.isFloating then castDouble word target mode
      else .error (.unsupported .double target)
    | .string text => castText text target mode
    | value => .error (.unsupported value.type target)

end Scalar

end GpuPlacement
