/-!
Quoted strings of TOML documents. Each reader starts behind the opening quotes and gives the
content and the text after the closing ones.
-/
namespace GpuPlacement.TomlQuoted

/-- Characters that stand for themselves: all but the control characters other than the tab. -/
def isPlain (c : Char) : Bool :=
  c = '\t' || (0x20 ≤ c.toNat && c.toNat ≠ 0x7F)

def isBlank (c : Char) : Bool :=
  c = ' ' || c = '\t'

/-- The content of an escape with one letter. -/
def escaped? : Char → Option Char
  | 'b' => some '\x08'
  | 't' => some '\t'
  | 'n' => some '\n'
  | 'f' => some '\x0c'
  | 'r' => some '\r'
  | '"' => some '"'
  | '\\' => some '\\'
  | _ => none

def hexValue? (c : Char) : Option Nat :=
  if c.isDigit then some (c.toNat - '0'.toNat)
  else if 'a' ≤ c && c ≤ 'f' then some (c.toNat - 'a'.toNat + 10)
  else if 'A' ≤ c && c ≤ 'F' then some (c.toNat - 'A'.toNat + 10)
  else none

/-- The character of a code point in hexadecimal digits; surrogates are no characters. -/
def scalar? (digits : List Char) : Option Char :=
  let value? := digits.foldl (fun value? c =>
    value?.bind fun value => (hexValue? c).map (16 * value + ·)) (some 0)
  value?.bind fun value =>
    if value < 0xD800 || (0xDFFF < value && value < 0x110000) then some (Char.ofNat value)
    else none

/-- A string on one line, with escapes. -/
def readBasic? (content : List Char) : List Char → Option (String × List Char)
  | [] => none
  | '"' :: rest => some (String.ofList content.reverse, rest)
  | '\\' :: 'u' :: a :: b :: c :: d :: rest =>
    match scalar? [a, b, c, d] with
    | some c => readBasic? (c :: content) rest
    | none => none
  | '\\' :: 'U' :: a :: b :: c :: d :: e :: f :: g :: h :: rest =>
    match scalar? [a, b, c, d, e, f, g, h] with
    | some c => readBasic? (c :: content) rest
    | none => none
  | '\\' :: letter :: rest =>
    match escaped? letter with
    | some c => readBasic? (c :: content) rest
    | none => none
  | c :: rest => if isPlain c && c ≠ '\\' then readBasic? (c :: content) rest else none

/-- A string on one line, without escapes. -/
def readLiteral? (content : List Char) : List Char → Option (String × List Char)
  | [] => none
  | c :: rest =>
    if c = '\x27' then some (String.ofList content.reverse, rest)
    else if isPlain c then readLiteral? (c :: content) rest
    else none

/-- The end of a string over several lines, behind its three closing quotes: one or two more
quotes belong to the content. -/
def closeTriple (quote : Char) (content : List Char) (rest : List Char) : String × List Char :=
  match rest with
  | a :: b :: tail =>
    if a = quote && b = quote then (String.ofList (b :: a :: content).reverse, tail)
    else if a = quote then (String.ofList (a :: content).reverse, b :: tail)
    else (String.ofList content.reverse, rest)
  | [a] =>
    if a = quote then (String.ofList (a :: content).reverse, [])
    else (String.ofList content.reverse, rest)
  | [] => (String.ofList content.reverse, [])

/-- Where a reader stands in a string over several lines. A backslash at the end of a line folds
it: blanks up to the break, and all blanks and breaks after it, are left out. -/
inductive Fold where
  | none
  | seekingBreak
  | skipping
  deriving DecidableEq

/-- A string over several lines, with escapes. Line breaks are read as line feeds. -/
def readFolded? (fold : Fold) (content : List Char) : List Char → Option (String × List Char)
  | [] => .none
  | '\r' :: '\n' :: rest =>
    match fold with
    | .none => readFolded? .none ('\n' :: content) rest
    | _ => readFolded? .skipping content rest
  | c :: rest =>
    if fold = .seekingBreak then
      if isBlank c then readFolded? .seekingBreak content rest
      else if c = '\n' then readFolded? .skipping content rest
      else .none
    else if fold = .skipping && (isBlank c || c = '\n') then readFolded? .skipping content rest
    else if c = '"' then
      match rest with
      | '"' :: '"' :: tail => some (closeTriple '"' content tail)
      | rest => readFolded? .none ('"' :: content) rest
    else if c = '\\' then
      match rest with
      | 'u' :: c1 :: c2 :: c3 :: c4 :: tail =>
        match scalar? [c1, c2, c3, c4] with
        | some c => readFolded? .none (c :: content) tail
        | .none => .none
      | 'U' :: c1 :: c2 :: c3 :: c4 :: c5 :: c6 :: c7 :: c8 :: tail =>
        match scalar? [c1, c2, c3, c4, c5, c6, c7, c8] with
        | some c => readFolded? .none (c :: content) tail
        | .none => .none
      | letter :: tail =>
        match escaped? letter with
        | some c => readFolded? .none (c :: content) tail
        | .none => readFolded? .seekingBreak content (letter :: tail)
      | [] => .none
    else if isPlain c || c = '\n' then readFolded? .none (c :: content) rest
    else .none

/-- A string over several lines, without escapes. Line breaks are read as line feeds. -/
def readVerbatim? (content : List Char) : List Char → Option (String × List Char)
  | [] => none
  | '\r' :: '\n' :: rest => readVerbatim? ('\n' :: content) rest
  | '\x27' :: '\x27' :: '\x27' :: rest => some (closeTriple '\x27' content rest)
  | c :: rest => if isPlain c || c = '\n' then readVerbatim? (c :: content) rest else none

/-- A line break right behind the opening quotes is no content. -/
def skipBreak : List Char → List Char
  | '\n' :: rest => rest
  | '\r' :: '\n' :: rest => rest
  | text => text

/-- A string of any kind, and the text after it. -/
def read? : List Char → Option (String × List Char)
  | '"' :: '"' :: '"' :: rest => readFolded? .none [] (skipBreak rest)
  | '"' :: rest => readBasic? [] rest
  | '\x27' :: '\x27' :: '\x27' :: rest => readVerbatim? [] (skipBreak rest)
  | '\x27' :: rest => readLiteral? [] rest
  | _ => none

/-- A string on one line, as keys are quoted, and the text after it. -/
def readLine? : List Char → Option (String × List Char)
  | '"' :: rest => readBasic? [] rest
  | '\x27' :: rest => readLiteral? [] rest
  | _ => none

end GpuPlacement.TomlQuoted
