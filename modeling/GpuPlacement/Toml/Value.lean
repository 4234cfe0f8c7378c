import GpuPlacement.Number.Layout
/-!
Values of TOML documents, and the texts of moments in time.
-/
namespace GpuPlacement

structure CalendarDate where
  year : Nat
  month : Nat
  day : Nat
  deriving DecidableEq

structure ClockTime where
  hour : Nat
  minute : Nat
  second : Nat
  nanosecond : Nat
  deriving DecidableEq

/-- The distance of a clock from universal time. -/
inductive ClockOffset where
  | universal
  | minutes (east : Int)
  deriving DecidableEq

/-- A date, a time of day, or both with an optional offset. -/
inductive Moment where
  | date (day : CalendarDate)
  | time (clock : ClockTime)
  | dateTime (day : CalendarDate) (clock : ClockTime) (offset : Option ClockOffset)
  deriving DecidableEq

namespace Moment

/-- A number with zeros in front of it up to a width. -/
def padded (width value : Nat) : String :=
  let digits := Nat.toDigits 10 value
  String.ofList (List.replicate (width - digits.length) '0' ++ digits)

def dayText (day : CalendarDate) : String :=
  s!"{padded 4 day.year}-{padded 2 day.month}-{padded 2 day.day}"

/-- Fractions of a second are written without trailing zeros. -/
def clockText (clock : ClockTime) : String :=
  let whole := s!"{padded 2 clock.hour}:{padded 2 clock.minute}:{padded 2 clock.second}"
  if clock.nanosecond = 0 then whole
  else
    let digits := (padded 9 clock.nanosecond).toList
    whole ++ "." ++ String.ofList (digits.reverse.dropWhile (· = '0')).reverse

def offsetText : ClockOffset → String
  | .universal => "Z"
  | .minutes east =>
    let distance := east.natAbs
    (if east < 0 then "-" else "+") ++ s!"{padded 2 (distance / 60)}:{padded 2 (distance % 60)}"

def text : Moment → String
  | .date day => dayText day
  | .time clock => clockText clock
  | .dateTime day clock offset =>
    s!"{dayText day}T{clockText clock}" ++ (offset.map offsetText).getD ""

end Moment

inductive TomlValue where
  | text (value : String)
  | integer (value : Int)
  | float (value : Binary64)
  | boolean (value : Bool)
  | moment (value : Moment)
  | array (items : List TomlValue)
  /-- The entries stand in increasing key order. -/
  | table (entries : List (String × TomlValue))

end GpuPlacement
