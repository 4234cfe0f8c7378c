import GpuPlacement.Number.Shortest
/-!
Texts of binary words: fewest digits, laid out with a point or with an exponent as a record of
decisions says. The named records are the layouts that the reports, settings and documents use.
-/
namespace GpuPlacement

/-- The decisions of one way to write floating point numbers. -/
structure FloatLayout where
  tie : DecimalTie
  /-- Positions of the decimal point, counted from the front of the digits, that are written
  without an exponent; all of them when absent. -/
  positional : Option (Int × Int)
  /-- Whole numbers keep `.0`. -/
  wholePoint : Bool
  /-- Exponents above zero carry a plus sign. -/
  exponentPlus : Bool
  notANumber : String
  infinity : String

namespace FloatLayout

/-- Reports and casts write every digit and no exponent. -/
def report : FloatLayout := ⟨.upward, none, false, false, "NaN", "inf"⟩

/-- Settings keep a mark of the type, and use exponents below `0.0001` and from `10 ^ 16` on. -/
def setting : FloatLayout := ⟨.upward, some (-3, 16), true, false, "NaN", "inf"⟩

/-- Plan documents use exponents below `0.00001` and from `10 ^ 16` on, with their sign. -/
def document : FloatLayout := ⟨.toEven, some (-4, 16), true, true, "null", "null"⟩

/-- Plan documents write single words with exponents below `0.000001` and from `10 ^ 13` on. -/
def documentSingle : FloatLayout := ⟨.toEven, some (-5, 13), true, true, "null", "null"⟩

/-- Settings documents write every digit, and `.0` after whole numbers. -/
def settingsDocument : FloatLayout := ⟨.upward, none, true, false, "nan", "inf"⟩

/-- Digits with the point at a position counted from their front. -/
def positionalText (layout : FloatLayout) (digits : List Char) (point : Int) : List Char :=
  let count : Int := digits.length
  if point ≤ 0 then '0' :: '.' :: List.replicate (-point).toNat '0' ++ digits
  else if count ≤ point then
    digits ++ List.replicate (point - count).toNat '0'
      ++ if layout.wholePoint then ['.', '0'] else []
  else digits.take point.toNat ++ '.' :: digits.drop point.toNat

/-- One digit, the others after a point, and the exponent after `e`. -/
def exponentText (layout : FloatLayout) (digits : List Char) (point : Int) : List Char :=
  let fraction := digits.drop 1
  let exponent := point - 1
  let sign := if layout.exponentPlus && 0 < exponent then ['+'] else []
  digits.take 1 ++ (if fraction = [] then [] else '.' :: fraction)
    ++ 'e' :: sign ++ (toString exponent).toList

def magnitudeText (layout : FloatLayout) (decimal : DecimalDigits) : List Char :=
  let digits := Nat.toDigits 10 decimal.digits
  let point : Int := digits.length + decimal.exponent
  match layout.positional with
  | some (least, greatest) =>
    if least ≤ point && point ≤ greatest then layout.positionalText digits point
    else layout.exponentText digits point
  | none => layout.positionalText digits point

/-- The text of a datum of a format. -/
def datumText (layout : FloatLayout) (format : BinaryFormat) : FloatDatum → String
  | .notANumber => layout.notANumber
  | .infinite negative => (if negative then "-" else "") ++ layout.infinity
  | .finite negative significand exponent =>
    let magnitude :=
      if significand = 0 then if layout.wholePoint then ['0', '.', '0'] else ['0']
      else layout.magnitudeText (.shortest format layout.tie significand exponent)
    String.ofList (if negative then '-' :: magnitude else magnitude)

end FloatLayout

/-- The text of a word. -/
def FloatWord.text (word : FloatWord format) (layout : FloatLayout) : String :=
  layout.datumText format word.datum

end GpuPlacement
