import GpuPlacement.Number.Binary
/-!
Decimal numerals: integers with a sign, numbers with a fraction and an exponent, and the word of a
binary format nearest to a numeral.
-/
namespace GpuPlacement

/-- The number written by a string of decimal digits. -/
def digitsValue (digits : List Char) : Nat :=
  digits.foldl (fun value digit => 10 * value + (digit.toNat - '0'.toNat)) 0

/-- One or more decimal digits and nothing else. -/
def readDigits? (text : List Char) : Option Nat :=
  if text ≠ [] && text.all Char.isDigit then some (digitsValue text) else none

/-- Whether a minus stands in front, and the text after an optional sign. -/
def splitSign : List Char → Bool × List Char
  | '-' :: rest => (true, rest)
  | '+' :: rest => (false, rest)
  | text => (false, text)

/-- An optional sign and decimal digits. -/
def readInteger? (text : List Char) : Option Int :=
  let (negative, digits) := splitSign text
  (readDigits? digits).map fun magnitude => if negative then -(magnitude : Int) else magnitude

/-- An optional plus and decimal digits. -/
def readNatural? (text : List Char) : Option Nat :=
  match text with
  | '+' :: digits => readDigits? digits
  | digits => readDigits? digits

/-- An integer numeral whose value lies in a range. -/
def readIntegerIn? (least greatest : Int) (text : List Char) : Option Int :=
  (readInteger? text).filter fun value => decide (least ≤ value ∧ value ≤ greatest)

/-- The number `significand * 10 ^ exponent` with its sign. -/
structure DecimalNumber where
  negative : Bool
  significand : Nat
  exponent : Int
  deriving DecidableEq

namespace DecimalNumber

/-- The exponent part of a numeral, or nothing at the end of the text. -/
def readExponent? : List Char → Option Int
  | [] => some 0
  | mark :: rest => if mark = 'e' || mark = 'E' then readInteger? rest else none

/-- Digits, an optional point among or around them, and an optional exponent. -/
def readUnsigned? (negative : Bool) (text : List Char) : Option DecimalNumber :=
  let whole := text.takeWhile Char.isDigit
  let (fraction, tail) :=
    match text.dropWhile Char.isDigit with
    | '.' :: rest => (rest.takeWhile Char.isDigit, rest.dropWhile Char.isDigit)
    | rest => ([], rest)
  if whole = [] && fraction = [] then none
  else
    (readExponent? tail).map fun exponent =>
      ⟨negative, digitsValue (whole ++ fraction), exponent - fraction.length⟩

end DecimalNumber

namespace FloatWord

variable {format : BinaryFormat}

/-- Numbers from `10 ^ 400` on are infinite and those below `10 ^ -400` are zero in every format
of at most eleven exponent bits, so no larger power of ten is computed. -/
def ofDecimal (number : DecimalNumber) : FloatWord format :=
  let magnitude : Int := number.exponent + (Nat.toDigits 10 number.significand).length
  if number.significand = 0 || magnitude < -400 then zero number.negative
  else if 400 < magnitude then infinity number.negative
  else if 0 ≤ number.exponent then
    ofQuotient number.negative (number.significand * Nat.pow 10 number.exponent.toNat) 1
  else ofQuotient number.negative number.significand (Nat.pow 10 (-number.exponent).toNat)

/-- Reads a numeral with an optional sign, or one of the names of the infinities and of the datum
that is no number, in any case of letters. -/
def read? (text : List Char) : Option (FloatWord format) :=
  let (negative, magnitude) := splitSign text
  let name := String.ofList (magnitude.map Char.toLower)
  if name = "nan" then some notANumber
  else if name = "inf" || name = "infinity" then some (infinity negative)
  else (DecimalNumber.readUnsigned? negative magnitude).map ofDecimal

end FloatWord

end GpuPlacement
