/-!
Binary interchange formats: the words of a format, the data they denote, and rounding of an exact
quotient to the nearest word. All arithmetic is on naturals and integers.
-/
namespace GpuPlacement

/-- A word has one sign bit, then the exponent field, then the fraction field. -/
structure BinaryFormat where
  fractionBits : Nat
  exponentBits : Nat
  deriving DecidableEq

namespace BinaryFormat

def single : BinaryFormat := ⟨23, 8⟩

def double : BinaryFormat := ⟨52, 11⟩

def width (format : BinaryFormat) : Nat :=
  1 + format.exponentBits + format.fractionBits

/-- The weight of the sign bit. -/
def signWeight (format : BinaryFormat) : Nat :=
  Nat.pow 2 (format.exponentBits + format.fractionBits)

/-- The binary exponent of the least positive word. -/
def leastExponent (format : BinaryFormat) : Int :=
  2 - Nat.pow 2 (format.exponentBits - 1) - format.fractionBits

/-- The magnitude field of an infinity: larger magnitudes are no numbers. -/
def infinityField (format : BinaryFormat) : Nat :=
  (Nat.pow 2 format.exponentBits - 1) * Nat.pow 2 format.fractionBits

end BinaryFormat

/-- A word of a binary format. -/
structure FloatWord (format : BinaryFormat) where
  bits : BitVec format.width
  deriving DecidableEq

abbrev Binary32 := FloatWord .single

abbrev Binary64 := FloatWord .double

/-- What a word denotes; a finite datum is `significand * 2 ^ exponent` with its sign. -/
inductive FloatDatum where
  | notANumber
  | infinite (negative : Bool)
  | finite (negative : Bool) (significand : Nat) (exponent : Int)
  deriving DecidableEq

namespace FloatDatum

def isFinite : FloatDatum → Bool
  | .finite .. => true
  | _ => false

/-- The integer part of a magnitude. -/
def wholePart (significand : Nat) (exponent : Int) : Nat :=
  if 0 ≤ exponent then significand * Nat.pow 2 exponent.toNat
  else significand / Nat.pow 2 (-exponent).toNat

/-- A finite datum without its fraction, nearer to zero. -/
def truncate? : FloatDatum → Option Int
  | .finite negative significand exponent =>
    let whole : Int := wholePart significand exponent
    some (if negative then -whole else whole)
  | _ => none

end FloatDatum

namespace FloatWord

variable {format : BinaryFormat}

def negative (word : FloatWord format) : Bool :=
  decide (format.signWeight ≤ word.bits.toNat)

/-- The exponent and fraction fields as one number, which orders the magnitudes. -/
def magnitudeField (word : FloatWord format) : Nat :=
  word.bits.toNat % format.signWeight

def datum (word : FloatWord format) : FloatDatum :=
  let magnitude := word.magnitudeField
  let hidden := Nat.pow 2 format.fractionBits
  if format.infinityField < magnitude then .notANumber
  else if magnitude = format.infinityField then .infinite word.negative
  else if magnitude < hidden then .finite word.negative magnitude format.leastExponent
  else
    .finite word.negative (hidden + magnitude % hidden)
      (format.leastExponent + (magnitude / hidden : Nat) - 1)

def ofMagnitude (negative : Bool) (magnitude : Nat) : FloatWord format :=
  ⟨BitVec.ofNat _ (magnitude + if negative then format.signWeight else 0)⟩

def notANumber : FloatWord format :=
  ofMagnitude false (format.infinityField + Nat.pow 2 (format.fractionBits - 1))

def infinity (negative : Bool) : FloatWord format :=
  ofMagnitude negative format.infinityField

def zero (negative : Bool) : FloatWord format :=
  ofMagnitude negative 0

def isNaN (word : FloatWord format) : Bool :=
  word.datum = .notANumber

/-- The nearest integer to `num / den`; of two equally near ones the even one. -/
def roundHalfEven (num den : Nat) : Nat :=
  let floor := num / den
  let twice := 2 * (num % den)
  if twice < den then floor
  else if den < twice then floor + 1
  else floor + floor % 2

/-- The exponent of the last place of a quotient in the format: the quotient has
`fractionBits + 1` binary digits above it, or fewer at the least exponent. -/
def lastPlace (format : BinaryFormat) (num den : Nat) : Int :=
  let least := (num.log2 : Int) - den.log2 - format.fractionBits - 1
  let scaled :=
    if 0 ≤ least then num / (den * Nat.pow 2 least.toNat)
    else num * Nat.pow 2 (-least).toNat / den
  max format.leastExponent
    (if scaled < Nat.pow 2 (format.fractionBits + 1) then least else least + 1)

/-- The word nearest to `num / den`, ties to the even word; too large quotients are infinite.
A carry out of the significand moves into the exponent field by itself. -/
def ofQuotient (negative : Bool) (num den : Nat) : FloatWord format :=
  if num = 0 then zero negative
  else
    let place := lastPlace format num den
    let significand :=
      if 0 ≤ place then roundHalfEven num (den * Nat.pow 2 place.toNat)
      else roundHalfEven (num * Nat.pow 2 (-place).toNat) den
    let steps := (place - format.leastExponent).toNat
    ofMagnitude negative
      (min format.infinityField (steps * Nat.pow 2 format.fractionBits + significand))

/-- The word of a datum in a format, rounded to nearest. -/
def ofDatum : FloatDatum → FloatWord format
  | .notANumber => notANumber
  | .infinite negative => infinity negative
  | .finite negative significand exponent =>
    if 0 ≤ exponent then ofQuotient negative (significand * Nat.pow 2 exponent.toNat) 1
    else ofQuotient negative significand (Nat.pow 2 (-exponent).toNat)

def ofInt (value : Int) : FloatWord format :=
  ofQuotient (decide (value < 0)) value.natAbs 1

/-- The same datum in another format, rounded to nearest where it does not fit. -/
def convert (word : FloatWord format) (target : BinaryFormat) : FloatWord target :=
  ofDatum word.datum

/-- The product of two finite words, rounded once; another first operand stays as it is. -/
def multiply (word factor : FloatWord format) : FloatWord format :=
  match word.datum, factor.datum with
  | .finite negative significand exponent, .finite negative' significand' exponent' =>
    ofDatum (.finite (negative != negative') (significand * significand') (exponent + exponent'))
  | _, _ => word

/-- The quotient of two finite words, rounded once; another first operand stays as it is. -/
def divide (word divisor : FloatWord format) : FloatWord format :=
  match word.datum, divisor.datum with
  | .finite negative significand exponent, .finite negative' significand' exponent' =>
    let shift := exponent - exponent'
    if 0 ≤ shift then
      ofQuotient (negative != negative') (significand * Nat.pow 2 shift.toNat) significand'
    else ofQuotient (negative != negative') significand (significand' * Nat.pow 2 (-shift).toNat)
  | _, _ => word

def negate (word : FloatWord format) : FloatWord format :=
  ofMagnitude (!word.negative) word.magnitudeField

end FloatWord

end GpuPlacement
