import GpuPlacement.Json.Numeral
/-!
Tokens of JSON documents, found by a machine that takes one character per step.
-/
namespace GpuPlacement

inductive JsonToken where
  | arrayStart
  | arrayEnd
  | objectStart
  | objectEnd
  | colon
  | comma
  /-- A text; nothing when a surrogate stands alone in it. -/
  | text (content : Option String)
  /-- `null`, a truth value or a number. -/
  | scalar (value : Json)

namespace JsonToken

/-- A text being read, its characters last first. A leading surrogate waits for its partner. -/
structure TextInProgress where
  chars : List Char
  leading : Option Nat
  lone : Bool

namespace TextInProgress

def empty : TextInProgress := ⟨[], none, false⟩

def push (text : TextInProgress) (c : Char) : TextInProgress :=
  ⟨c :: text.chars, none, text.lone || text.leading.isSome⟩

/-- Adds one unit of a `\u` escape. -/
def pushUnit (text : TextInProgress) (unit : Nat) : TextInProgress :=
  if 0xD800 ≤ unit && unit ≤ 0xDBFF then
    ⟨text.chars, some unit, text.lone || text.leading.isSome⟩
  else if 0xDC00 ≤ unit && unit ≤ 0xDFFF then
    match text.leading with
    | some leading =>
      ⟨Char.ofNat (0x10000 + (leading - 0xD800) * 0x400 + (unit - 0xDC00)) :: text.chars, none,
        text.lone⟩
    | none => { text with lone := true }
  else text.push (Char.ofNat unit)

def finish (text : TextInProgress) : JsonToken :=
  if text.lone || text.leading.isSome then .text none
  else .text (some (String.ofList text.chars.reverse))

end TextInProgress

/-- What the machine is inside of. -/
inductive Mode where
  | between
  | text (content : TextInProgress)
  | escape (content : TextInProgress)
  /-- Inside a `\u` escape with some digits still to come. -/
  | unit (content : TextInProgress) (missing : Nat) (value : Nat)
  | numeral (chars : List Char)
  | word (chars : List Char)

/-- The mode and the tokens found so far, last first. -/
structure Scan where
  mode : Mode
  found : List JsonToken

def isNumeralChar (c : Char) : Bool :=
  c.isDigit || c = '+' || c = '-' || c = '.' || c = 'e' || c = 'E'

def punctuation? : Char → Option JsonToken
  | '[' => some .arrayStart
  | ']' => some .arrayEnd
  | '\x7b' => some .objectStart
  | '\x7d' => some .objectEnd
  | ':' => some .colon
  | ',' => some .comma
  | _ => none

/-- A character that starts a token or stands between two. -/
def Scan.start (found : List JsonToken) (c : Char) : Option Scan :=
  if c = ' ' || c = '\t' || c = '\n' || c = '\r' then some ⟨.between, found⟩
  else if c = '"' then some ⟨.text .empty, found⟩
  else if c = '-' || c.isDigit then some ⟨.numeral [c], found⟩
  else if c.isLower then some ⟨.word [c], found⟩
  else (punctuation? c).map fun token => ⟨.between, token :: found⟩

def numeralToken? (chars : List Char) : Option JsonToken :=
  (JsonNumeral.read? chars.reverse).map fun numeral =>
    match numeral.number? with
    | some number => .scalar (.number number)
    | none => .scalar .undecodable

def wordToken? (chars : List Char) : Option JsonToken :=
  match String.ofList chars.reverse with
  | "null" => some (.scalar .null)
  | "true" => some (.scalar (.bool true))
  | "false" => some (.scalar (.bool false))
  | _ => none

def escaped? : Char → Option Char
  | '"' => some '"'
  | '\\' => some '\\'
  | '/' => some '/'
  | 'b' => some '\x08'
  | 'f' => some '\x0c'
  | 'n' => some '\n'
  | 'r' => some '\r'
  | 't' => some '\t'
  | _ => none

def hexValue? (c : Char) : Option Nat :=
  if c.isDigit then some (c.toNat - '0'.toNat)
  else if 'a' ≤ c && c ≤ 'f' then some (c.toNat - 'a'.toNat + 10)
  else if 'A' ≤ c && c ≤ 'F' then some (c.toNat - 'A'.toNat + 10)
  else none

/-- One character; nothing where no document continues so. -/
def Scan.step (scan : Scan) (c : Char) : Option Scan :=
  match scan.mode with
  | .between => Scan.start scan.found c
  | .text content =>
    if c = '"' then some ⟨.between, content.finish :: scan.found⟩
    else if c = '\\' then some ⟨.escape content, scan.found⟩
    else if c.toNat < 0x20 then none
    else some ⟨.text (content.push c), scan.found⟩
  | .escape content =>
    if c = 'u' then some ⟨.unit content 4 0, scan.found⟩
    else (escaped? c).map fun decoded => ⟨.text (content.push decoded), scan.found⟩
  | .unit content missing value =>
    (hexValue? c).map fun digit =>
      let value := 16 * value + digit
      if missing ≤ 1 then ⟨.text (content.pushUnit value), scan.found⟩
      else ⟨.unit content (missing - 1) value, scan.found⟩
  | .numeral chars =>
    if isNumeralChar c then some ⟨.numeral (c :: chars), scan.found⟩
    else (numeralToken? chars).bind fun token => Scan.start (token :: scan.found) c
  | .word chars =>
    if c.isLower then some ⟨.word (c :: chars), scan.found⟩
    else (wordToken? chars).bind fun token => Scan.start (token :: scan.found) c

/-- The tokens at the end of the document, in order. -/
def Scan.finish? (scan : Scan) : Option (List JsonToken) :=
  match scan.mode with
  | .between => some scan.found.reverse
  | .numeral chars => (numeralToken? chars).map fun token => (token :: scan.found).reverse
  | .word chars => (wordToken? chars).map fun token => (token :: scan.found).reverse
  | _ => none

def scanFrom (scan : Scan) : List Char → Option Scan
  | [] => some scan
  | c :: rest =>
    match scan.step c with
    | some next => scanFrom next rest
    | none => none

def ofText? (text : List Char) : Option (List JsonToken) :=
  (scanFrom ⟨.between, []⟩ text).bind Scan.finish?

end JsonToken

end GpuPlacement
