import GpuPlacement.Json.Value
/-!
Texts of JSON values: on one line, and over several lines with an indent of two spaces.
-/
namespace GpuPlacement

namespace JsonNumber

/-- Data that are no numbers have no numeral and are written as `null`. -/
def toText : JsonNumber → String
  | .integer value => toString value
  | .single word => if word.datum.isFinite then word.text .documentSingle else "null"
  | .double word => if word.datum.isFinite then word.text .document else "null"

end JsonNumber

namespace Json

def hexDigit (value : Nat) : Char :=
  Nat.digitChar (value % 16)

/-- Quotes, backslashes and control characters are escaped, all else stands as it is. -/
def escapeChar (c : Char) : List Char :=
  match c with
  | '"' => ['\\', '"']
  | '\\' => ['\\', '\\']
  | '\x08' => ['\\', 'b']
  | '\x0c' => ['\\', 'f']
  | '\n' => ['\\', 'n']
  | '\r' => ['\\', 'r']
  | '\t' => ['\\', 't']
  | c =>
    if c.toNat < 0x20 then
      ['\\', 'u', '0', '0', hexDigit (c.toNat / 16), hexDigit c.toNat]
    else [c]

def quote (text : String) : String :=
  String.ofList ('"' :: text.toList.flatMap escapeChar ++ ['"'])

mutual

def compact : Json → String
  | .null => "null"
  | .bool value => if value then "true" else "false"
  | .number value => value.toText
  | .text value => quote value
  | .array items => "[" ++ compactItems items ++ "]"
  | .object members => "\x7b" ++ compactMembers members ++ "\x7d"
  | .undecodable => "null"

def compactItems : List Json → String
  | [] => ""
  | [item] => item.compact
  | item :: rest => item.compact ++ "," ++ compactItems rest

def compactMembers : List (String × Json) → String
  | [] => ""
  | [(name, value)] => quote name ++ ":" ++ value.compact
  | (name, value) :: rest => quote name ++ ":" ++ value.compact ++ "," ++ compactMembers rest

end

/-- The start of a line at a depth. -/
def newline (depth : Nat) : String :=
  "\n" ++ String.ofList (List.replicate (2 * depth) ' ')

mutual

/-- The text of a value whose first line stands at a depth; empty containers stay on one line. -/
def prettyAt (depth : Nat) : Json → String
  | .array (item :: rest) =>
    "[" ++ newline (depth + 1) ++ prettyItems (depth + 1) (item :: rest) ++ newline depth ++ "]"
  | .object (member :: rest) =>
    "\x7b" ++ newline (depth + 1) ++ prettyMembers (depth + 1) (member :: rest)
      ++ newline depth ++ "\x7d"
  | .array [] => "[]"
  | .object [] => "\x7b\x7d"
  | .null => "null"
  | .bool value => if value then "true" else "false"
  | .number value => value.toText
  | .text value => quote value
  | .undecodable => "null"

def prettyItems (depth : Nat) : List Json → String
  | [] => ""
  | [item] => item.prettyAt depth
  | item :: rest => item.prettyAt depth ++ "," ++ newline depth ++ prettyItems depth rest

def prettyMembers (depth : Nat) : List (String × Json) → String
  | [] => ""
  | [(name, value)] => quote name ++ ": " ++ value.prettyAt depth
  | (name, value) :: rest =>
    quote name ++ ": " ++ value.prettyAt depth ++ "," ++ newline depth ++ prettyMembers depth rest

end

def pretty (json : Json) : String :=
  json.prettyAt 0

end Json

end GpuPlacement
