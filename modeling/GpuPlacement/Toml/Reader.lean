import GpuPlacement.Toml.Quoted
import GpuPlacement.Toml.Scalar
import GpuPlacement.Toml.Table
/-!
TOML documents. Arrays and inline tables nest at most `nestingLimit` deep. Loops are bounded by the
length of the text, of which every turn takes at least one character.
-/
namespace GpuPlacement.TomlDocument

def nestingLimit : Nat := 79

def skipBlanks (text : List Char) : List Char :=
  text.dropWhile TomlQuoted.isBlank

/-- The text after an optional comment, up to the line break. -/
def skipComment : List Char → List Char
  | '#' :: rest => rest.dropWhile TomlQuoted.isPlain
  | text => text

/-- The end of a line, after blanks and a comment. -/
def readLineEnd? (text : List Char) : Option (List Char) :=
  match skipComment (skipBlanks text) with
  | [] => some []
  | '\n' :: rest => some rest
  | '\r' :: '\n' :: rest => some rest
  | _ => none

/-- Blanks, line breaks and comments, which may stand between the items of an array. -/
def skipLines? (inComment : Bool) : List Char → Option (List Char)
  | [] => some []
  | '\r' :: '\n' :: rest => skipLines? false rest
  | c :: rest =>
    if c = '\n' then skipLines? false rest
    else if inComment then if TomlQuoted.isPlain c then skipLines? true rest else none
    else if TomlQuoted.isBlank c then skipLines? false rest
    else if c = '#' then skipLines? true rest
    else some (c :: rest)

def isBareKeyChar (c : Char) : Bool :=
  c.isAlphanum || c = '_' || c = '-'

/-- One part of a key. -/
def readKeyPart? (text : List Char) : Option (String × List Char) :=
  match TomlQuoted.readLine? text with
  | some part => some part
  | none =>
    let bare := text.takeWhile isBareKeyChar
    if bare = [] then none else some (String.ofList bare, text.dropWhile isBareKeyChar)

/-- The parts of a key with dots between them, and blanks around each. -/
def readKey? : Nat → List Char → Option (List String × List Char)
  | 0, _ => none
  | turns + 1, text =>
    (readKeyPart? (skipBlanks text)).bind fun (part, rest) =>
      match skipBlanks rest with
      | '.' :: rest => (readKey? turns rest).map fun (parts, rest) => (part :: parts, rest)
      | rest => some ([part], rest)

/-- Characters of unquoted values. -/
def isWordChar (c : Char) : Bool :=
  c.isAlphanum || c = '+' || c = '-' || c = '_' || c = '.' || c = ':'

/-- An unquoted value. A date may go on with a time behind one blank. -/
def readWord? (text : List Char) : Option (TomlValue × List Char) :=
  let word := text.takeWhile isWordChar
  let rest := text.dropWhile isWordChar
  let clock :=
    match rest with
    | ' ' :: tail => tail.takeWhile isWordChar
    | _ => []
  match TomlValue.readDate? word, clock with
  | some (_, []), c :: clock =>
    (TomlValue.readWord? (word ++ ' ' :: c :: clock)).map fun value =>
      (value, rest.drop (clock.length + 2))
  | _, _ => (TomlValue.readWord? word).map fun value => (value, rest)

/-- A reader of one value. -/
abbrev ValueReader := List Char → Option (TomlValue × List Char)

/-- The items of an array, last first, up to the closing bracket. -/
def readItems? (readValue : ValueReader) :
    Nat → List TomlValue → List Char → Option (TomlValue × List Char)
  | 0, _, _ => none
  | turns + 1, items, text =>
    (skipLines? false text).bind fun text =>
      match text with
      | ']' :: rest => some (.array items.reverse, rest)
      | text =>
        (readValue text).bind fun (item, rest) =>
          (skipLines? false rest).bind fun rest =>
            match rest with
            | ',' :: rest => readItems? readValue turns (item :: items) rest
            | ']' :: rest => some (.array (item :: items).reverse, rest)
            | _ => none

/-- A key, an equals sign and a value. -/
def readPair? (readValue : ValueReader) (text : List Char) :
    Option ((List String × TomlValue) × List Char) :=
  (readKey? nestingLimit text).bind fun (path, rest) =>
    match rest with
    | '=' :: rest =>
      (readValue (skipBlanks rest)).map fun (value, rest) => ((path, value), rest)
    | _ => none

/-- The entries of an inline table, on one line and without a comma at the end. -/
def readEntries? (readValue : ValueReader) :
    Nat → TomlTable → List Char → Option (TomlValue × List Char)
  | 0, _, _ => none
  | turns + 1, table, text =>
    (readPair? readValue text).bind fun ((path, value), rest) =>
      (table.addPath path value).bind fun table =>
        match skipBlanks rest with
        | ',' :: rest => readEntries? readValue turns table rest
        | '\x7d' :: rest => some ((TomlItem.table table.origin table.entries).finish, rest)
        | _ => none

/-- A value while some arrays and inline tables may still open. -/
def readValue? : Nat → ValueReader
  | nesting, text =>
    match nesting, text with
    | _, [] => none
    | 0, c :: _ =>
      if c = '"' || c = '\x27' then
        (TomlQuoted.read? text).map fun (value, rest) => (.text value, rest)
      else readWord? text
    | nesting + 1, c :: rest =>
      if c = '"' || c = '\x27' then
        (TomlQuoted.read? text).map fun (value, rest) => (.text value, rest)
      else if c = '[' then readItems? (readValue? nesting) (text.length + 1) [] rest
      else if c = '\x7b' then
        match skipBlanks rest with
        | '\x7d' :: rest => some (.table [], rest)
        | rest => readEntries? (readValue? nesting) (text.length + 1) .root rest
      else readWord? text

/-- The document read so far, and the path of the header that entries go to. -/
structure Progress where
  root : TomlTable
  header : List String

namespace Progress

def addPair (progress : Progress) (path : List String) (value : TomlValue) : Option Progress :=
  (TomlTable.changeAt .implied (TomlTable.addPath path value) progress.header progress.root).map
    fun root => { progress with root }

def openTable (progress : Progress) (path : List String) : Option Progress :=
  (TomlTable.changeParent TomlTable.stateTable path progress.root).map fun root => ⟨root, path⟩

def openRepeated (progress : Progress) (path : List String) : Option Progress :=
  (TomlTable.changeParent TomlTable.appendTable path progress.root).map fun root => ⟨root, path⟩

/-- A header, an entry, or neither, up to the end of the line. -/
def readLine? (progress : Progress) (text : List Char) : Option (Progress × List Char) :=
  match skipBlanks text with
  | '[' :: '[' :: rest =>
    (readKey? nestingLimit rest).bind fun (path, rest) =>
      match rest with
      | ']' :: ']' :: rest =>
        (progress.openRepeated path).bind fun progress =>
          (readLineEnd? rest).map fun rest => (progress, rest)
      | _ => none
  | '[' :: rest =>
    (readKey? nestingLimit rest).bind fun (path, rest) =>
      match rest with
      | ']' :: rest =>
        (progress.openTable path).bind fun progress =>
          (readLineEnd? rest).map fun rest => (progress, rest)
      | _ => none
  | c :: rest =>
    if c = '#' || c = '\n' || c = '\r' then
      (readLineEnd? (c :: rest)).map fun rest => (progress, rest)
    else
      (readPair? (readValue? nestingLimit) (c :: rest)).bind fun ((path, value), rest) =>
        (progress.addPair path value).bind fun progress =>
          (readLineEnd? rest).map fun rest => (progress, rest)
  | [] => some (progress, [])

def readLines? : Nat → Progress → List Char → Option Progress
  | _, progress, [] => some progress
  | 0, _, _ :: _ => none
  | turns + 1, progress, c :: rest =>
    (progress.readLine? (c :: rest)).bind fun (progress, rest) => readLines? turns progress rest

end Progress

/-- The root table of a document, or nothing when the text is none. A byte order mark may stand
in front. -/
def read? (text : String) : Option TomlValue :=
  let chars :=
    match text.toList with
    | '\ufeff' :: rest => rest
    | chars => chars
  (Progress.readLines? (chars.length + 1) ⟨.root, []⟩ chars).map fun progress =>
    (TomlItem.table progress.root.origin progress.root.entries).finish

end GpuPlacement.TomlDocument
