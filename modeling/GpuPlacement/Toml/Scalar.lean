import GpuPlacement.Toml.Value
import GpuPlacement.Number.Decimal
/-!
Readers of the unquoted values of TOML documents: truth values, numbers and moments in time.
-/
namespace GpuPlacement.TomlValue

/-- Digits of a class with single underscores between them; the digits without the
underscores. -/
def readSpacedDigits? (isDigit : Char → Bool) : List Char → Option (List Char)
  | [] => none
  | [c] => if isDigit c then some [c] else none
  | c :: '_' :: rest =>
    if isDigit c then (readSpacedDigits? isDigit rest).map (c :: ·) else none
  | c :: rest => if isDigit c then (readSpacedDigits? isDigit rest).map (c :: ·) else none

/-- Decimal digits without a leading zero. -/
def readWhole? (text : List Char) : Option (List Char) :=
  match readSpacedDigits? Char.isDigit text with
  | some ('0' :: _ :: _) => none
  | digits => digits

def digitValue (c : Char) : Nat :=
  if c.isDigit then c.toNat - '0'.toNat else c.toLower.toNat - 'a'.toNat + 10

def isHexDigit (c : Char) : Bool :=
  c.isDigit || ('a' ≤ c && c ≤ 'f') || ('A' ≤ c && c ≤ 'F')

def inBase (base : Nat) (digits : List Char) : Nat :=
  digits.foldl (fun value digit => base * value + digitValue digit) 0

/-- Integers of 64 bits: decimal ones with an optional sign, others with the mark of their base. -/
def readInteger64? (text : List Char) : Option Int :=
  let value? : Option Int :=
    match text with
    | '0' :: 'x' :: digits => (readSpacedDigits? isHexDigit digits).map fun ds => inBase 16 ds
    | '0' :: 'o' :: digits =>
      (readSpacedDigits? (fun c => '0' ≤ c && c ≤ '7') digits).map fun ds => inBase 8 ds
    | '0' :: 'b' :: digits =>
      (readSpacedDigits? (fun c => c = '0' || c = '1') digits).map fun ds => inBase 2 ds
    | decimal =>
      let (negative, digits) := splitSign decimal
      (readWhole? digits).map fun ds => if negative then -(inBase 10 ds : Int) else inBase 10 ds
  value?.filter fun value =>
    decide (Int64.minValue.toInt ≤ value ∧ value ≤ Int64.maxValue.toInt)

/-- An exponent without its mark. -/
def readExponent? (text : List Char) : Option (List Char) :=
  match text with
  | '+' :: digits => (readSpacedDigits? Char.isDigit digits).map ('+' :: ·)
  | '-' :: digits => (readSpacedDigits? Char.isDigit digits).map ('-' :: ·)
  | digits => readSpacedDigits? Char.isDigit digits

/-- A fraction, an exponent, or both, as a numeral without underscores. -/
def readFloatTail? (text : List Char) : Option (List Char) :=
  let isMark := fun c => c = 'e' || c = 'E'
  match text with
  | '.' :: rest =>
    (readSpacedDigits? Char.isDigit (rest.takeWhile (!isMark ·))).bind fun fraction =>
      match rest.dropWhile (!isMark ·) with
      | [] => some ('.' :: fraction)
      | _ :: exponent => (readExponent? exponent).map fun exponent =>
        '.' :: fraction ++ 'e' :: exponent
  | mark :: exponent => if isMark mark then (readExponent? exponent).map ('e' :: ·) else none
  | [] => none

/-- A number with a fraction or an exponent, or the name of an infinity or of no number. Numerals
above the range of words are refused, those below it are negative infinity. -/
def readFloat? (text : List Char) : Option Binary64 :=
  let (negative, magnitude) := splitSign text
  match String.ofList magnitude with
  | "inf" => some (.infinity negative)
  | "nan" => some .notANumber
  | _ =>
    let isTail := fun c => c = '.' || c = 'e' || c = 'E'
    (readWhole? (magnitude.takeWhile (!isTail ·))).bind fun whole =>
      (readFloatTail? (magnitude.dropWhile (!isTail ·))).bind fun tail =>
        (DecimalNumber.readUnsigned? negative (whole ++ tail)).bind fun number =>
          let word : Binary64 := .ofDecimal number
          if word.datum = .infinite false then none else some word

/-- Two digits of a range. -/
def twoDigits? (least greatest : Nat) (a b : Char) : Option Nat :=
  if a.isDigit && b.isDigit then
    let value := 10 * digitValue a + digitValue b
    if least ≤ value && value ≤ greatest then some value else none
  else none

def daysInMonth (year month : Nat) : Nat :=
  if month = 2 then
    if year % 4 = 0 && (year % 100 ≠ 0 || year % 400 = 0) then 29 else 28
  else if [4, 6, 9, 11].contains month then 30
  else 31

/-- A date of the calendar, and the text after it. -/
def readDate? : List Char → Option (CalendarDate × List Char)
  | a :: b :: c :: d :: '-' :: e :: f :: '-' :: g :: h :: rest => do
    let century ← twoDigits? 0 99 a b
    let inCentury ← twoDigits? 0 99 c d
    let month ← twoDigits? 1 12 e f
    let day ← twoDigits? 1 31 g h
    let year := 100 * century + inCentury
    if day ≤ daysInMonth year month then some (⟨year, month, day⟩, rest) else none
  | _ => none

/-- Nanoseconds from the digits after the point; further digits are cut. -/
def nanoseconds (digits : List Char) : Nat :=
  let kept := digits.take 9
  inBase 10 kept * Nat.pow 10 (9 - kept.length)

/-- A time of day, and the text after it. Leap seconds are times. -/
def readTime? : List Char → Option (ClockTime × List Char)
  | a :: b :: ':' :: c :: d :: ':' :: e :: f :: rest => do
    let hour ← twoDigits? 0 23 a b
    let minute ← twoDigits? 0 59 c d
    let second ← twoDigits? 0 60 e f
    match rest with
    | '.' :: fraction =>
      let digits := fraction.takeWhile Char.isDigit
      if digits = [] then none
      else some (⟨hour, minute, second, nanoseconds digits⟩, fraction.dropWhile Char.isDigit)
    | rest => some (⟨hour, minute, second, 0⟩, rest)
  | _ => none

def readOffset? : List Char → Option (Option ClockOffset)
  | [] => some none
  | ['Z'] | ['z'] => some (some .universal)
  | [sign, a, b, ':', c, d] => do
    let hours ← twoDigits? 0 23 a b
    let minutes ← twoDigits? 0 59 c d
    let distance : Int := 60 * hours + minutes
    if sign = '+' then some (some (.minutes distance))
    else if sign = '-' then some (some (.minutes (-distance)))
    else none
  | _ => none

/-- A whole moment; date and time stand apart by a letter or a blank. -/
def readMoment? (text : List Char) : Option Moment :=
  match readDate? text with
  | some (date, []) => some (.date date)
  | some (date, separator :: rest) =>
    if separator = 'T' || separator = 't' || separator = ' ' then
      (readTime? rest).bind fun (time, tail) =>
        (readOffset? tail).map fun offset => .dateTime date time offset
    else none
  | none =>
    match readTime? text with
    | some (time, []) => some (.time time)
    | _ => none

/-- An unquoted value of any kind. -/
def readWord? (text : List Char) : Option TomlValue :=
  match String.ofList text with
  | "true" => some (.boolean true)
  | "false" => some (.boolean false)
  | _ =>
    ((readMoment? text).map TomlValue.moment).or
      (((readInteger64? text).map TomlValue.integer).or ((readFloat? text).map TomlValue.float))

end GpuPlacement.TomlValue
