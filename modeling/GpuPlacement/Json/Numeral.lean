import GpuPlacement.Json.Value
import GpuPlacement.Number.Decimal
/-!
Numerals of JSON documents. A numeral with a fraction or an exponent is read in one step from a
64 bit significand and a power of ten, so its last digit may differ from the nearest word.
-/
namespace GpuPlacement

/-- The parts of a numeral, as digits. -/
structure JsonNumeral where
  negative : Bool
  whole : List Char
  fraction : Option (List Char)
  exponent : Option Int

namespace JsonNumeral

def readExponent? : List Char → Option (Option Int)
  | [] => some none
  | mark :: rest =>
    if mark = 'e' || mark = 'E' then (readInteger? rest).map some else none

/-- A whole part without leading zeros; a point and an exponent need digits after them. -/
def read? (text : List Char) : Option JsonNumeral :=
  let (negative, magnitude) :=
    match text with
    | '-' :: rest => (true, rest)
    | rest => (false, rest)
  let whole := magnitude.takeWhile Char.isDigit
  let rest := magnitude.dropWhile Char.isDigit
  if whole = [] || (whole.head? = some '0' && 1 < whole.length) then none
  else
    match rest with
    | '.' :: tail =>
      let fraction := tail.takeWhile Char.isDigit
      if fraction = [] then none
      else
        (readExponent? (tail.dropWhile Char.isDigit)).map fun exponent =>
          ⟨negative, whole, some fraction, exponent⟩
    | _ => (readExponent? rest).map fun exponent => ⟨negative, whole, none, exponent⟩

/-- Digits taken into a significand of 64 bits; the first one that does not fit and all after it
are left. -/
def takeDigits : Nat → List Char → Nat × List Char
  | significand, [] => (significand, [])
  | significand, digit :: rest =>
    let next := 10 * significand + (digit.toNat - '0'.toNat)
    if next < UInt64.size then takeDigits next rest else (significand, digit :: rest)

/-- Divides by `10 ^ 308` while the exponent is below the table of powers. -/
def lower : Nat → Binary64 → Int → Binary64 × Int
  | 0, word, exponent => (word, exponent)
  | steps + 1, word, exponent =>
    if exponent < -308 then
      lower steps (word.divide (.ofDecimal ⟨false, 1, 308⟩)) (exponent + 308)
    else (word, exponent)

/-- One multiplication or division by a power of ten, itself a word. Four steps bring every
exponent into the table or the value to zero. -/
def scaleByTen (significand : Nat) (exponent : Int) : Option Binary64 :=
  let word : Binary64 := .ofInt significand
  if significand = 0 then some word
  else if 308 < exponent then none
  else if 0 ≤ exponent then
    some (word.multiply (.ofDecimal ⟨false, 1, exponent⟩))
  else
    let (word, exponent) := lower 4 word exponent
    if exponent < -308 then some (.zero false)
    else some (word.divide (.ofDecimal ⟨false, 1, -exponent⟩))

/-- The word of a numeral with a fraction, an exponent or too many digits; nothing beyond the
range of words. -/
def word? (numeral : JsonNumeral) : Option Binary64 := do
  let (significand, dropped) := takeDigits 0 numeral.whole
  let fraction := numeral.fraction.getD []
  let (significand, cut) := takeDigits significand fraction
  let exponent : Int := dropped.length - (fraction.length - cut.length : Int)
  let magnitude ← scaleByTen significand (exponent + numeral.exponent.getD 0)
  if magnitude.datum.isFinite then
    some (if numeral.negative then magnitude.negate else magnitude)
  else none

/-- The number of a numeral. A negative zero is no integer, since only a word can hold its
sign. -/
def number? (numeral : JsonNumeral) : Option JsonNumber :=
  let whole := digitsValue numeral.whole
  if numeral.fraction = none && numeral.exponent = none
      && (if numeral.negative then 0 < whole && Int64.minValue.toInt ≤ -(whole : Int)
        else whole < UInt64.size) then
    some (.integer (if numeral.negative then -(whole : Int) else whole))
  else numeral.word?.map .double

end JsonNumeral

end GpuPlacement
