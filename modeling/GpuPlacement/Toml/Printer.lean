import GpuPlacement.Toml.Value
/-!
Texts of single TOML values, on one line wherever their strings allow it.
-/
namespace GpuPlacement.TomlValue

def hexDigitUpper (value : Nat) : Char :=
  (Nat.digitChar (value % 16)).toUpper

/-- Control characters other than the tab, which no string holds without an escape. -/
def isControl (c : Char) : Bool :=
  (c.toNat < 0x20 && c ≠ '\t') || c.toNat = 0x7F

/-- How a character other than a quote is written between quotes. -/
def escapeChar (multiline : Bool) (c : Char) : List Char :=
  match c with
  | '\x08' => ['\\', 'b']
  | '\t' => ['\\', 't']
  | '\n' => if multiline then ['\n'] else ['\\', 'n']
  | '\x0c' => ['\\', 'f']
  | '\r' => ['\\', 'r']
  | '\\' => ['\\', '\\']
  | c =>
    if isControl c then
      ['\\', 'u', '0', '0', hexDigitUpper (c.toNat / 16), hexDigitUpper c.toNat]
    else [c]

/-- How a text is written between quotes. A string over several lines admits two quotes in a row
as they stand, another string none; `run` of them stand in front of the text. -/
def escapeFrom (multiline : Bool) (run : Nat) : List Char → List Char
  | [] => []
  | '"' :: rest =>
    if multiline && run < 2 then '"' :: escapeFrom multiline (run + 1) rest
    else '\\' :: '"' :: escapeFrom multiline 0 rest
  | c :: rest => escapeChar multiline c ++ escapeFrom multiline 0 rest

def escape (multiline : Bool) (text : List Char) : List Char :=
  escapeFrom multiline 0 text

/-- The longest run of a character in a text. -/
def longestRun (mark : Char) (text : List Char) : Nat :=
  (text.foldl (fun (longest, current) c =>
    if c = mark then (max longest (current + 1), current + 1) else (longest, 0)) (0, 0)).1

/-- The ways to enclose a string: between quotes, with escapes, or between apostrophes, without;
on one line or over several. -/
inductive Enclosure where
  | quotes
  | apostrophes
  | tripleQuotes
  | tripleApostrophes
  deriving DecidableEq

/-- The first enclosure in which a text needs no escape but for tabs, and quotes where there is
none. -/
def Enclosure.of (text : List Char) : Enclosure :=
  let multiline := text.contains '\n'
  let quoted := if multiline then .tripleQuotes else .quotes
  let backslash := text.contains '\\'
  if text.any (fun c => isControl c && c ≠ '\n') then quoted
  else if !backslash && !multiline && longestRun '"' text = 0 then .quotes
  else if !multiline && longestRun '\x27' text = 0 then .apostrophes
  else if !backslash && longestRun '"' text ≤ 2 then .tripleQuotes
  else if longestRun '\x27' text ≤ 2 then .tripleApostrophes
  else quoted

/-- The text of a string. The line break behind an opening triple belongs to the enclosure, and is
written where the content has line breaks too. -/
def stringText (value : String) : String :=
  let text := value.toList
  let lineBreak := if text.contains '\n' then "\n" else ""
  match Enclosure.of text with
  | .quotes => "\"" ++ String.ofList (escape false text) ++ "\""
  | .apostrophes => "'" ++ value ++ "'"
  | .tripleQuotes => "\"\"\"" ++ lineBreak ++ String.ofList (escape true text) ++ "\"\"\""
  | .tripleApostrophes => "'''" ++ lineBreak ++ value ++ "'''"

def isBareKeyChar (c : Char) : Bool :=
  c.isAlphanum || c = '_' || c = '-'

/-- Keys stand bare where they can, and always on one line. -/
def keyText (key : String) : String :=
  let text := key.toList
  if text ≠ [] && text.all isBareKeyChar then key
  else if text.any (fun c => c = '"' || c = '\\')
      && text.all (fun c => !isControl c && c ≠ '\x27') then
    "'" ++ key ++ "'"
  else "\"" ++ String.ofList (escape false text) ++ "\""

def floatText (value : Binary64) : String :=
  if value.isNaN then FloatLayout.settingsDocument.notANumber
  else value.text .settingsDocument

mutual

def toText : TomlValue → String
  | .text value => stringText value
  | .integer value => toString value
  | .float value => floatText value
  | .boolean value => if value then "true" else "false"
  | .moment value => value.text
  | .array items => "[" ++ itemsText items ++ "]"
  | .table [] => "\x7b\x7d"
  | .table (entry :: rest) => "\x7b " ++ entriesText (entry :: rest) ++ " \x7d"

def itemsText : List TomlValue → String
  | [] => ""
  | [item] => item.toText
  | item :: rest => item.toText ++ ", " ++ itemsText rest

def entriesText : List (String × TomlValue) → String
  | [] => ""
  | [(key, value)] => keyText key ++ " = " ++ value.toText
  | (key, value) :: rest => keyText key ++ " = " ++ value.toText ++ ", " ++ entriesText rest

end

end GpuPlacement.TomlValue
